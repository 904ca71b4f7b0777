import AyaBook.Egress.CgroupSkb
import AyaBook.Egress.Tc
import AyaBook.Xdp.Drop
import AyaBook.Xdp.Log

/-!
# Which programs do not depend on the target's byte order

The build tool accepts `bpfel-unknown-none` and `bpfeb-unknown-none`. Each program is compared with
itself on the other target, with its blocklist filled by a userspace of the target's byte order.

* `sameOnBothTargets_iff`: the two XDP programs and the classifier are the same program on both;
  the cgroup program is, except on the packets whose ethertype bytes `ETH_P_IP` matches on one of
  the two. On `bpfeb` those it matches are not IPv4.
-/

namespace AyaBook

open AyaBook.Lib

/-- A packet for one of the four programs. -/
inductive Input where
  | xdpDrop (ctx : XdpContext)
  | xdpLog (ctx : XdpContext)
  | tcEgress (skb : SkBuff)
  | cgroupSkbEgress (skb : SkBuff)

namespace Input

/-- The program returns and reports the same on either target. -/
def SameOnBothTargets (addrs : List Ipv4Addr) : Input → Prop
  | xdpDrop ctx =>
    XdpDrop.xdpFirewall .big (Blocklist.load .big addrs) ctx =
      XdpDrop.xdpFirewall .little (Blocklist.load .little addrs) ctx
  | xdpLog ctx => XdpLog.xdpFirewall .big ctx = XdpLog.xdpFirewall .little ctx
  | tcEgress skb =>
    TcEgress.tcEgress .big (Blocklist.load .big addrs) skb =
      TcEgress.tcEgress .little (Blocklist.load .little addrs) skb
  | cgroupSkbEgress skb => ∀ taken : Bool,
    CgroupSkbEgress.cgroupSkbEgress .big (Blocklist.load .big addrs) taken skb =
      CgroupSkbEgress.cgroupSkbEgress .little (Blocklist.load .little addrs) taken skb

/-- On either target, the cgroup program refuses an IPv4 packet to a blocked address. -/
def RefusesBlocked (addrs : List Ipv4Addr) : Input → Prop
  | cgroupSkbEgress skb => ∀ (e : Endian) (taken : Bool), skb.protocolBytes = (0x08, 0x00) →
    20 ≤ skb.data.length → addrAt skb.data 16 ∈ Blocklist.accepted e addrs →
      (CgroupSkbEgress.cgroupSkbEgress e (Blocklist.load e addrs) taken skb).verdict = 0
  | _ => True

/-- A packet of the cgroup program with the ethertype bytes `08 00` or `00 08`. -/
def Misread : Input → Prop
  | cgroupSkbEgress skb => skb.protocolBytes = (0x08, 0x00) ∨ skb.protocolBytes = (0x00, 0x08)
  | _ => False

end Input

/-- Two targets with the same reading of a packet come to the same outcome. -/
theorem filterOutcome_endian {V L : Type} {code : Fate → V} {log : Ipv4Addr → V → L}
    (addrs : List Ipv4Addr) (r : Reading) :
    filterOutcome code log (Blocklist.blocks .big (Blocklist.load .big addrs)) r =
      filterOutcome code log (Blocklist.blocks .little (Blocklist.load .little addrs)) r :=
  filterOutcome_congr (Blocklist.blocks_endian .big .little addrs) r

/-- Where the two targets come to one outcome, a packet that one of them does not take for IPv4 is
not IPv4 to the other either. -/
theorem skbReading_other_of_same {taken : Bool} {skb : SkBuff} {b b' : Ipv4Addr → Bool}
    {e e' : Endian}
    (h : filterOutcome CgroupSkbEgress.code (CgroupSkbEgress.record taken) b
        (CgroupSkbEgress.skbReading e skb) =
      filterOutcome CgroupSkbEgress.code (CgroupSkbEgress.record taken) b'
        (CgroupSkbEgress.skbReading e' skb))
    (hother : CgroupSkbEgress.skbReading e' skb = .other) :
    CgroupSkbEgress.skbReading e skb = .other := by
  have hcode : CgroupSkbEgress.code .malformed ≠ CgroupSkbEgress.code .passed := by decide
  rw [hother] at h
  exact (filterOutcome_eq_other_iff hcode).mp h

/-- The cgroup program: both targets must take the packet for something other than IPv4. -/
theorem cgroupSkbEgress_same_iff (addrs : List Ipv4Addr) (skb : SkBuff) :
    (Input.cgroupSkbEgress skb).SameOnBothTargets addrs ↔
      ¬ (Input.cgroupSkbEgress skb).Misread := by
  have hother : ∀ e, CgroupSkbEgress.skbReading e skb = .other ↔
      skb.protocolBytes ≠ CgroupSkbEgress.ethPIpBytes e :=
    fun _ => CgroupSkbEgress.skbReading_other_iff
  simp only [Input.SameOnBothTargets, Input.Misread, CgroupSkbEgress.cgroupSkbEgress_eq]
  constructor
  · intro h hm
    specialize h true
    rcases hm with hm | hm
    · have hbig : CgroupSkbEgress.skbReading .big skb = .other := by
        rw [hother, hm]
        decide
      exact (hother .little).mp (skbReading_other_of_same h.symm hbig) hm
    · have hlittle : CgroupSkbEgress.skbReading .little skb = .other := by
        rw [hother, hm]
        decide
      exact (hother .big).mp (skbReading_other_of_same h hlittle) hm
  · intro hm taken
    have hlittle := (hother .little).mpr fun h => hm (Or.inl h)
    have hbig := (hother .big).mpr fun h => hm (Or.inr h)
    rw [hlittle, hbig]
    exact filterOutcome_endian addrs .other

/-- **Byte order independence**, program by program: it holds of every packet except those of the
cgroup program with the ethertype bytes `08 00` or `00 08`. -/
theorem sameOnBothTargets_iff (addrs : List Ipv4Addr) (i : Input) :
    i.SameOnBothTargets addrs ∧ i.RefusesBlocked addrs ↔ ¬ i.Misread := by
  cases i with
  | xdpDrop ctx =>
    refine iff_of_true ⟨?_, trivial⟩ id
    rw [Input.SameOnBothTargets, XdpDrop.xdpFirewall_eq, XdpDrop.xdpFirewall_eq]
    exact filterOutcome_endian addrs _
  | xdpLog ctx =>
    refine iff_of_true ⟨?_, trivial⟩ id
    rw [Input.SameOnBothTargets, XdpLog.xdpFirewall_eq, XdpLog.xdpFirewall_eq]
  | tcEgress skb =>
    refine iff_of_true ⟨?_, trivial⟩ id
    rw [Input.SameOnBothTargets, TcEgress.tcEgress_eq, TcEgress.tcEgress_eq]
    exact filterOutcome_endian addrs _
  | cgroupSkbEgress skb =>
    rw [cgroupSkbEgress_same_iff]
    constructor
    · exact fun h => h.1
    · intro h
      refine ⟨h, ?_⟩
      intro e taken hip
      exact absurd (Or.inl hip) h

/-- **The cgroup filter fails open on `bpfeb`**: a header going to 1.1.1.1, which is blocked. -/
theorem cgroupSkbEgress_big_lets_through :
    ¬ ∀ (addrs : List Ipv4Addr) (i : Input),
      i.SameOnBothTargets addrs ∧ i.RefusesBlocked addrs := by
  intro h
  have hzero := (h [⟨1, 1, 1, 1⟩] (.cgroupSkbEgress
    ⟨[0x45, 0, 0, 20, 0, 0, 0, 0, 64, 1, 0, 0, 10, 0, 0, 1, 1, 1, 1, 1], (0x08, 0x00), -14⟩)).2
    .big true rfl (by decide) (by decide)
  exact absurd hzero (by decide)

end AyaBook
