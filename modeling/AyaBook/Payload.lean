import Mathlib.Logic.Function.Basic
import AyaBook.Egress.CgroupSkb
import AyaBook.Egress.Tc
import AyaBook.Xdp.Drop
import AyaBook.Xdp.Log
import AyaBook.Xdp.Source

/-!
# What the packet programs can depend on

No program looks behind the headers it asks for. That it asks for them as a whole, and takes no
more than a few of their bytes, makes its outcome a function of the packet's first bytes.

* `outcome_factorsThrough`: **nothing of the payload** reaches a verdict or a report.
* `xdp_programs_agree`: the two XDP programs take the same bytes for the source address.
-/

namespace AyaBook

open AyaBook.Lib

/-! ## The beginning of a packet -/

variable {n : Nat}

theorem getD_take {i : Nat} (h : i < n) (p : List UInt8) : (p.take n).getD i 0 = p.getD i 0 := by
  rw [List.getD_eq_getElem?_getD, List.getElem?_take_of_lt h, ← List.getD_eq_getElem?_getD]

theorem addrAt_take {off : Nat} (h : off + 4 ≤ n) (p : List UInt8) :
    addrAt (p.take n) off = addrAt p off := by
  unfold addrAt
  rw [getD_take (by omega), getD_take (by omega), getD_take (by omega), getD_take (by omega)]

theorem portAt_take {off : Nat} (h : off + 2 ≤ n) (p : List UInt8) :
    portAt (p.take n) off = portAt p off := by
  unfold portAt
  rw [getD_take (by omega), getD_take (by omega)]

theorem isIpv4_take (h : 14 ≤ n) (p : List UInt8) : IsIpv4 (p.take n) ↔ IsIpv4 p := by
  unfold IsIpv4 bytesAt
  rw [List.drop_take, List.take_take, Nat.min_eq_left (by omega)]

/-- Whether a header fits can be told from the bytes up to its end. -/
theorem length_take_lt_iff {k : Nat} (h : k ≤ n) (p : List UInt8) :
    (p.take n).length < k ↔ p.length < k := by
  rw [List.length_take]
  omega

theorem frameReading_take {off : Nat} (h34 : 34 ≤ n) (hoff : off + 4 ≤ n) (p : List UInt8) :
    frameReading off (p.take n) = frameReading off p := by
  unfold frameReading
  simp only [length_take_lt_iff (show 14 ≤ n by omega), length_take_lt_iff h34,
    isIpv4_take (show 14 ≤ n by omega), addrAt_take hoff]

namespace XdpLog

theorem l4Len_le {proto : UInt8} {len : Nat} (h : l4Len proto = some len) : len ≤ 20 := by
  unfold l4Len at h
  split at h
  · obtain rfl := Option.some.inj h
    exact Nat.le_refl 20
  · split at h
    · obtain rfl := Option.some.inj h
      decide
    · exact nomatch h

theorem observed_take (h : 54 ≤ n) (p : List UInt8) : observed (p.take n) = observed p := by
  unfold observed
  rw [frameReading_take (by omega) (by omega), getD_take (by omega), portAt_take (by omega)]
  cases frameReading 26 p with
  | truncated => rfl
  | other => rfl
  | ipv4 src =>
    cases hl4 : l4Len (p.getD 23 0) with
    | none => rfl
    | some len =>
      have hlen := l4Len_le hl4
      simp only [length_take_lt_iff (show 34 + len ≤ n by omega)]

end XdpLog

namespace CgroupSkbEgress

/-- What the cgroup program sees of a packet: its ethertype bytes and the first 20 bytes. -/
def seen (skb : SkBuff) : (UInt8 × UInt8) × List UInt8 := (skb.protocolBytes, skb.data.take 20)

theorem skbReading_congr {e : Endian} {skb skb' : SkBuff} (h : seen skb = seen skb') :
    skbReading e skb = skbReading e skb' := by
  obtain ⟨hproto, hdata⟩ := Prod.mk.inj h
  have hprotocol : skb.protocol e = skb'.protocol e := by
    unfold SkBuff.protocol
    rw [hproto]
  have haddr : addrAt skb.data 16 = addrAt skb'.data 16 := by
    rw [← addrAt_take (Nat.le_refl 20) skb.data, hdata, addrAt_take (Nat.le_refl 20)]
  have hlength : skb.data.length < 20 ↔ skb'.data.length < 20 := by
    rw [← length_take_lt_iff (Nat.le_refl 20) skb.data, hdata, length_take_lt_iff (Nat.le_refl 20)]
  unfold skbReading
  simp only [hprotocol, hlength, haddr]

end CgroupSkbEgress

/-! ## The programs -/

/-- A function of a packet that reads the same off its first `n` bytes. -/
theorem factorsThrough_take {X Y : Type} {f : List UInt8 → Y} {data : X → List UInt8} {g : X → Y}
    (hg : ∀ x, g x = f (data x)) (htake : ∀ p, f (p.take n) = f p) :
    Function.FactorsThrough g fun x => (data x).take n := by
  intro x y hxy
  have hf : f ((data x).take n) = f ((data y).take n) := congrArg f hxy
  rw [hg, hg, ← htake (data x), ← htake (data y), hf]

/-- **Nothing of the payload reaches a verdict or a report.** In either byte order and for any
blocklist, what `xdp-drop` and `tc-egress` return and report is a function of the frame's first 34
bytes, what `xdp-log` does of its first 54, and what the cgroup program does of the ethertype
bytes and the first 20 bytes of the network packet. -/
theorem outcome_factorsThrough (e : Endian) (m : Blocklist) (taken : Bool) :
    Function.FactorsThrough (XdpDrop.xdpFirewall e m) (fun ctx => ctx.packet.take 34) ∧
    Function.FactorsThrough (XdpLog.xdpFirewall e) (fun ctx => ctx.packet.take 54) ∧
    Function.FactorsThrough (TcEgress.tcEgress e m) (fun skb => skb.data.take 34) ∧
    Function.FactorsThrough (CgroupSkbEgress.cgroupSkbEgress e m taken) CgroupSkbEgress.seen := by
  refine ⟨?_, ?_, ?_, ?_⟩
  · let f := fun p => filterOutcome XdpDrop.code XdpDrop.Log.mk (Blocklist.blocks e m)
      (frameReading 26 p)
    refine factorsThrough_take (f := f) (XdpDrop.xdpFirewall_eq e m) fun p => ?_
    simp only [f, frameReading_take (Nat.le_refl 34) (show 26 + 4 ≤ 34 by decide)]
  · exact factorsThrough_take (XdpLog.xdpFirewall_eq e) (XdpLog.observed_take (Nat.le_refl 54))
  · let f := fun p => filterOutcome TcEgress.code TcEgress.Log.mk (Blocklist.blocks e m)
      (frameReading 30 p)
    refine factorsThrough_take (f := f) (TcEgress.tcEgress_eq e m) fun p => ?_
    simp only [f, frameReading_take (Nat.le_refl 34) (Nat.le_refl 34)]
  · intro skb skb' h
    rw [CgroupSkbEgress.cgroupSkbEgress_eq, CgroupSkbEgress.cgroupSkbEgress_eq,
      CgroupSkbEgress.skbReading_congr h]

/-! ## The two XDP programs -/

/-- **The XDP programs agree on the source.** Where `xdp-log` logs a packet, `xdp-drop` decides by
the address it logged and logs the same one; a packet that `xdp-drop` aborts on, `xdp-log` aborts
on too. -/
theorem xdp_programs_agree (e : Endian) (m : Blocklist) (ctx : XdpContext) :
    (∀ log ∈ (XdpLog.xdpFirewall e ctx).reports,
      let action := if Blocklist.blocks e m log.srcIp then XDP_DROP else XDP_PASS
      XdpDrop.xdpFirewall e m ctx = ⟨action, [⟨log.srcIp, action⟩]⟩) ∧
    ((XdpDrop.xdpFirewall e m ctx).verdict = XDP_ABORTED →
      (XdpLog.xdpFirewall e ctx).verdict = XDP_ABORTED) := by
  constructor
  · intro log hlog
    obtain ⟨⟨hip, len, -, hroom⟩, rfl⟩ := (XdpLog.mem_reports_iff e ctx log).mp hlog
    have hread : frameReading 26 ctx.packet = .ipv4 (addrAt ctx.packet 26) :=
      frameReading_ipv4_iff.mpr ⟨by omega, hip, rfl⟩
    intro action
    rw [XdpDrop.xdpFirewall_eq, hread, filterOutcome_ipv4]
    rfl
  · intro habort
    rw [XdpDrop.xdpFirewall_eq, filterOutcome_verdict, XdpDrop.code_eq_aborted_iff,
      policy_malformed_iff] at habort
    rw [XdpLog.xdpFirewall_eq, XdpLog.observed, habort]

end AyaBook
