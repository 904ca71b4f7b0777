import AyaBook.Xdp.Log

/-!
# The true source of a logged packet

A transport header starts where the IPv4 header ends, which its length field says, and only the
first fragment of a packet has one. `xdp-log` looks at neither: it takes the port from byte 34,
behind an IPv4 header without options.

* `mem_reports_iff`: the record the program emits, if any.
* `logs_source_iff`: **when the record is right**: for a first or only fragment without options, or
  by coincidence.
-/

namespace AyaBook

/-- The length of the IPv4 header in words, the low half of byte 14. -/
def ihl (p : List UInt8) : Nat := (p.getD 14 0).toNat % 16

/-- The fragment offset, the low 13 bits of bytes 20 and 21. -/
def fragmentOffset (p : List UInt8) : Nat := (portAt p 20).toNat % 2 ^ 13

/-- Where the transport header starts. -/
def transportStart (p : List UInt8) : Nat := 14 + 4 * ihl p

/-- Two ports are equal iff their bytes are. -/
theorem portAt_inj {p : List UInt8} {i j : Nat} (hi : i + 2 ≤ p.length) (hj : j + 2 ≤ p.length) :
    portAt p i = portAt p j ↔ bytesAt p i 2 = bytesAt p j 2 := by
  rw [bytesAt_two hi, bytesAt_two hj]
  exact u16Load_inj .big rfl rfl

end AyaBook

namespace AyaBook.XdpLog

open AyaBook.Lib

/-- **A record of the true source**: the frame is the first or only fragment of a TCP or UDP packet,
and the record has its source address and the source port of its transport header. -/
structure IsSource (p : List UInt8) (log : Log) : Prop where
  first : fragmentOffset p = 0
  transport : p.getD 23 0 = IpProto.tcp ∨ p.getD 23 0 = IpProto.udp
  srcIp_eq : log.srcIp = addrAt p 26
  port_mem : transportStart p + 2 ≤ p.length
  srcPort_eq : log.srcPort = portAt p (transportStart p)

/-- The program logs the packet: it is IPv4, TCP or UDP, and there is room for a TCP or a UDP header
at byte 34. -/
def Logs (p : List UInt8) : Prop :=
  IsIpv4 p ∧ ∃ n, l4Len (p.getD 23 0) = some n ∧ 34 + n ≤ p.length

/-- What is logged is TCP or UDP, and has a port. -/
theorem l4Len_eq_some {proto : UInt8} {n : Nat} (h : l4Len proto = some n) :
    (proto = IpProto.tcp ∨ proto = IpProto.udp) ∧ 2 ≤ n := by
  unfold l4Len at h
  split at h
  · rename_i htcp
    obtain rfl := Option.some.inj h
    exact ⟨Or.inl htcp, by decide⟩
  · split at h
    · rename_i hudp
      obtain rfl := Option.some.inj h
      exact ⟨Or.inr hudp, by decide⟩
    · exact nomatch h

/-- **The record the program emits**: the address and the two bytes at 34. -/
theorem mem_reports_iff (e : Endian) (ctx : XdpContext) (log : Log) :
    log ∈ (xdpFirewall e ctx).reports ↔
      Logs ctx.packet ∧ log = ⟨addrAt ctx.packet 26, portAt ctx.packet 34⟩ := by
  rw [xdpFirewall_eq]
  constructor
  · intro hm
    unfold observed at hm
    cases hframe : frameReading 26 ctx.packet with
    | truncated =>
      rw [hframe] at hm
      exact absurd hm List.not_mem_nil
    | other =>
      rw [hframe] at hm
      exact absurd hm List.not_mem_nil
    | ipv4 src =>
      obtain ⟨-, hip, rfl⟩ := frameReading_ipv4_iff.mp hframe
      rw [hframe] at hm
      cases hl4 : l4Len (ctx.packet.getD 23 0) with
      | none =>
        simp only [hl4] at hm
        exact absurd hm List.not_mem_nil
      | some n =>
        simp only [hl4] at hm
        split at hm
        · exact absurd hm List.not_mem_nil
        · rename_i hroom
          exact ⟨⟨hip, n, hl4, Nat.not_lt.mp hroom⟩, List.mem_singleton.mp hm⟩
  · rintro ⟨⟨hip, n, hl4, hroom⟩, rfl⟩
    rw [observed_ipv4 (Nat.le_trans (Nat.le_add_right 34 n) hroom) hip, hl4]
    simp only [if_neg (Nat.not_lt.mpr hroom), List.mem_singleton]

/-- **The record of a logged packet** is right iff the packet is a first fragment and the port is
the one behind the header. -/
theorem isSource_iff {p : List UInt8} (h : Logs p) :
    IsSource p ⟨addrAt p 26, portAt p 34⟩ ↔
      fragmentOffset p = 0 ∧ (ihl p = 5 ∨ (transportStart p + 2 ≤ p.length ∧
        bytesAt p (transportStart p) 2 = bytesAt p 34 2)) := by
  obtain ⟨-, n, hl4, hroom⟩ := h
  obtain ⟨hproto, hn⟩ := l4Len_eq_some hl4
  have h36 : 34 + 2 ≤ p.length := by omega
  constructor
  · intro hsource
    have hbytes := (portAt_inj h36 hsource.port_mem).mp hsource.srcPort_eq
    exact ⟨hsource.first, Or.inr ⟨hsource.port_mem, hbytes.symm⟩⟩
  · rintro ⟨hfirst, hihl | ⟨hmem, hbytes⟩⟩
    · have hstart : transportStart p = 34 := by rw [transportStart, hihl]
      exact ⟨hfirst, hproto, rfl, by rw [hstart]; exact h36, by rw [hstart]⟩
    · exact ⟨hfirst, hproto, rfl, hmem, (portAt_inj h36 hmem).mpr hbytes.symm⟩

/-- **When `xdp-log` reports the true source**: for every packet it logs that is a first or only
fragment and whose IPv4 header has no options, or has the port's bytes at 34 by coincidence. -/
theorem logs_source_iff (e : Endian) (ctx : XdpContext) :
    (∀ log ∈ (xdpFirewall e ctx).reports, IsSource ctx.packet log) ↔
      (Logs ctx.packet → fragmentOffset ctx.packet = 0 ∧
        (ihl ctx.packet = 5 ∨ (transportStart ctx.packet + 2 ≤ ctx.packet.length ∧
          bytesAt ctx.packet (transportStart ctx.packet) 2 = bytesAt ctx.packet 34 2))) := by
  constructor
  · intro hall hlogs
    exact (isSource_iff hlogs).mp (hall _ ((mem_reports_iff e ctx _).mpr ⟨hlogs, rfl⟩))
  · intro hcond log hm
    obtain ⟨hlogs, rfl⟩ := (mem_reports_iff e ctx log).mp hm
    exact (isSource_iff hlogs).mpr (hcond hlogs)

/-- A UDP packet from port 49152 whose IPv4 header has a router alert option: six words. -/
def routerAlert : List UInt8 :=
  [2, 0, 0, 0, 0, 1, 2, 0, 0, 0, 0, 2, 8, 0,
    0x46, 0, 0, 32, 0, 0, 0, 0, 64, 17, 0, 0, 192, 168, 1, 7, 10, 0, 0, 1, 0x94, 4, 0, 0,
    0xc0, 0, 0, 53, 0, 8, 0, 0]

/-- **The option is logged as the port**: 0x9404 = 37892. -/
theorem logs_option_as_port :
    ¬ ∀ (e : Endian) (ctx : XdpContext), 5 ≤ ihl ctx.packet →
      ∀ log ∈ (xdpFirewall e ctx).reports, IsSource ctx.packet log := by
  intro h
  have hlog := h .little (.ofPacket routerAlert (by decide)) (by
    rw [XdpContext.packet_ofPacket]
    decide) ⟨⟨192, 168, 1, 7⟩, 37892⟩ (by
    rw [xdpFirewall_eq, XdpContext.packet_ofPacket]
    decide)
  have hport := hlog.srcPort_eq
  rw [XdpContext.packet_ofPacket] at hport
  exact absurd hport (by decide)

end AyaBook.XdpLog
