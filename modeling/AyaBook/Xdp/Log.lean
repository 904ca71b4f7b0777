import AyaBook.Xdp.Context

/-!
# `xdp-log`

Model of `examples/xdp-log/xdp-log-ebpf/src/main.rs`: log the source address and port of each
TCP or UDP packet.

* `xdpFirewall_eq`: what the program returns and logs, from the packet's bytes, in either byte
  order.
-/

namespace AyaBook.XdpLog

open AyaBook.Lib

/-- The record of `info!(&ctx, "SRC IP: {:i}, SRC PORT: {}", source_addr, source_port)`. -/
structure Log where
  srcIp : Ipv4Addr
  srcPort : UInt16
  deriving DecidableEq, Repr

/-- The `match` on the IPv4 protocol: the source port of the TCP or UDP header, which the program
expects right after an IPv4 header without options. -/
def sourcePort (e : Endian) (ctx : XdpContext) (proto : UInt8) : Xdp Log UInt16 :=
  if proto = IpProto.tcp then do
    let tcphdr ← ctx.callPtrAt (EthHdr.LEN + Ipv4Hdr.LEN) TcpHdr.LEN
    let source ← ctx.read (tcphdr + TcpHdr.source) 2
    pure (u16FromBe e (u16Load e source))
  else if proto = IpProto.udp then do
    let udphdr ← ctx.callPtrAt (EthHdr.LEN + Ipv4Hdr.LEN) UdpHdr.LEN
    let source ← ctx.read (udphdr + UdpHdr.source) 2
    pure (u16FromBe e (u16Load e source))
  else
    Traced.fail ()

/-- `try_xdp_firewall`. -/
def tryXdpFirewall (e : Endian) (ctx : XdpContext) : Xdp Log UInt32 := do
  let ethhdr ← ctx.callPtrAt 0 EthHdr.LEN
  let etherType ← ctx.read (ethhdr + EthHdr.etherType) 2
  if u16Load e etherType = EtherType.ipv4 e then
    let ipv4hdr ← ctx.callPtrAt EthHdr.LEN Ipv4Hdr.LEN
    let srcAddr ← ctx.read (ipv4hdr + Ipv4Hdr.srcAddr) 4
    let sourceAddr := u32FromBe e (u32Load e srcAddr)
    let proto ← ctx.read (ipv4hdr + Ipv4Hdr.proto) 1
    let port ← sourcePort e ctx (proto.getD 0 0)
    Traced.emit (.info ⟨Ipv4Addr.ofU32 sourceAddr, port⟩)
    pure XDP_PASS
  else
    pure XDP_PASS

/-- `xdp_firewall`. -/
def xdpFirewall (e : Endian) (ctx : XdpContext) : Outcome UInt32 Log :=
  Xdp.outcome (tryXdpFirewall e ctx)

/-! ## The program on bytes -/

/-- The size of the transport header the program asks for, by IPv4 protocol. -/
def l4Len (proto : UInt8) : Option Nat :=
  if proto = IpProto.tcp then some TcpHdr.LEN
  else if proto = IpProto.udp then some UdpHdr.LEN
  else none

/-- What the program returns and logs for the packet `p`. -/
def observed (p : List UInt8) : Outcome UInt32 Log :=
  match frameReading 26 p with
  | .truncated => ⟨XDP_ABORTED, []⟩
  | .other => ⟨XDP_PASS, []⟩
  | .ipv4 src =>
    match l4Len (p.getD 23 0) with
    | none => ⟨XDP_ABORTED, []⟩
    | some n =>
      if p.length < 34 + n then ⟨XDP_ABORTED, []⟩ else ⟨XDP_PASS, [⟨src, portAt p 34⟩]⟩

/-- One transport header: its source port is the first field, whichever header it is. -/
theorem outcome_l4 (e : Endian) (ctx : XdpContext) {len : Nat} (hw : 34 + len < 2 ^ 32)
    (h2 : 2 ≤ len) (k : UInt16 → Xdp Log UInt32) :
    Xdp.outcome (do
      let hdr ← ctx.callPtrAt (EthHdr.LEN + Ipv4Hdr.LEN) len
      let source ← ctx.read (hdr + 0) 2
      k (u16FromBe e (u16Load e source))) =
    if ctx.packet.length < 34 + len then ⟨XDP_ABORTED, []⟩
    else Xdp.outcome (k (portAt ctx.packet 34)) := by
  have hw' : EthHdr.LEN + Ipv4Hdr.LEN + len < 2 ^ 32 := hw
  by_cases h : ctx.packet.length < 34 + len
  · have h' : ctx.packet.length < EthHdr.LEN + Ipv4Hdr.LEN + len := h
    rw [outcome_ptrAt_error ctx hw' h', if_pos h]
  have h' : EthHdr.LEN + Ipv4Hdr.LEN + len ≤ ctx.packet.length := Nat.not_lt.mp h
  have hfield : EthHdr.LEN + Ipv4Hdr.LEN + 0 + 2 ≤ ctx.packet.length := by
    show 36 ≤ ctx.packet.length
    omega
  have hbytes : bytesAt ctx.packet (EthHdr.LEN + Ipv4Hdr.LEN + 0) 2 =
      [ctx.packet.getD 34 0, ctx.packet.getD 35 0] := bytesAt_two hfield
  rw [outcome_ptrAt ctx hw' h', outcome_read ctx hfield, if_neg h, hbytes, u16FromBe_load e rfl]
  rfl

/-- The `match` on the protocol, followed by the rest of the program. -/
theorem outcome_sourcePort (e : Endian) (ctx : XdpContext) (proto : UInt8)
    (k : UInt16 → Xdp Log UInt32) :
    Xdp.outcome (sourcePort e ctx proto >>= k) =
      match l4Len proto with
      | none => ⟨XDP_ABORTED, []⟩
      | some n =>
        if ctx.packet.length < 34 + n then ⟨XDP_ABORTED, []⟩
        else Xdp.outcome (k (portAt ctx.packet 34)) := by
  unfold sourcePort l4Len
  by_cases htcp : proto = IpProto.tcp
  · rw [if_pos htcp, if_pos htcp]
    simp only [bind_assoc, pure_bind]
    exact outcome_l4 e ctx (by decide) (by decide) k
  rw [if_neg htcp, if_neg htcp]
  by_cases hudp : proto = IpProto.udp
  · rw [if_pos hudp, if_pos hudp]
    simp only [bind_assoc, pure_bind]
    exact outcome_l4 e ctx (by decide) (by decide) k
  · rw [if_neg hudp, if_neg hudp]
    rfl

/-- **`xdp-log` on bytes**: the verdict and the log record, in either byte order. -/
theorem xdpFirewall_eq (e : Endian) (ctx : XdpContext) :
    xdpFirewall e ctx = observed ctx.packet := by
  unfold xdpFirewall tryXdpFirewall observed frameReading
  rw [outcome_ethernet, outcome_ipv4]
  by_cases h14 : ctx.packet.length < 14
  · rw [if_pos h14, if_pos h14]
  rw [if_neg h14, if_neg h14]
  by_cases hip : IsIpv4 ctx.packet
  · rw [if_pos hip, if_pos hip]
    by_cases h34 : ctx.packet.length < 34
    · rw [if_pos h34, if_pos h34]
    · have h23 : EthHdr.LEN + Ipv4Hdr.proto + 1 ≤ ctx.packet.length :=
        Nat.le_trans (by decide) (Nat.not_lt.mp h34)
      rw [if_neg h34, if_neg h34]
      simp only [u32FromBe_octets, Ipv4Addr.ofU32_toU32]
      rw [show ctx.data + 14 = ctx.data + EthHdr.LEN from rfl, outcome_read ctx h23,
        bytesAt_one h23, outcome_sourcePort, List.getD_cons_zero]
      rfl
  · rw [if_neg hip, if_neg hip]
    rfl

/-! ## When the observer lets a frame through -/

/-- Every header the program inspects is complete: Ethernet, IPv4 if the ethertype says so, and
TCP or UDP at offset 34 if the protocol says so. -/
def Complete (p : List UInt8) : Prop :=
  14 ≤ p.length ∧ (IsIpv4 p → 34 ≤ p.length ∧
    (p.getD 23 0 = IpProto.tcp → 34 + 20 ≤ p.length) ∧
    (p.getD 23 0 = IpProto.udp → 34 + 8 ≤ p.length))

instance (p : List UInt8) : Decidable (Complete p) :=
  inferInstanceAs (Decidable (_ ∧ (_ → _ ∧ (_ → _) ∧ (_ → _))))

/-- A packet with a whole IPv4 header: what becomes of it is up to its protocol. -/
theorem observed_ipv4 {p : List UInt8} (h34 : 34 ≤ p.length) (hip : IsIpv4 p) :
    observed p = match l4Len (p.getD 23 0) with
      | none => ⟨XDP_ABORTED, []⟩
      | some n =>
        if p.length < 34 + n then ⟨XDP_ABORTED, []⟩
        else ⟨XDP_PASS, [⟨addrAt p 26, portAt p 34⟩]⟩ := by
  unfold observed
  rw [frameReading_ipv4_iff.mpr ⟨h34, hip, rfl⟩]

/-- **`xdp-log` passes a complete frame iff it is not IPv4, or it is TCP or UDP.** -/
theorem xdpFirewall_pass_iff (e : Endian) (ctx : XdpContext) (h : Complete ctx.packet) :
    (xdpFirewall e ctx).verdict = XDP_PASS ↔
      (IsIpv4 ctx.packet →
        ctx.packet.getD 23 0 = IpProto.tcp ∨ ctx.packet.getD 23 0 = IpProto.udp) := by
  obtain ⟨h14, hip⟩ := h
  rw [xdpFirewall_eq]
  by_cases hv4 : IsIpv4 ctx.packet
  · obtain ⟨h34, htcp, hudp⟩ := hip hv4
    rw [observed_ipv4 h34 hv4]
    by_cases ht : ctx.packet.getD 23 0 = IpProto.tcp
    · have hroom : ¬ ctx.packet.length < 34 + TcpHdr.LEN := Nat.not_lt.mpr (htcp ht)
      simp only [l4Len, if_pos ht, if_neg hroom, true_iff]
      exact fun _ => Or.inl ht
    by_cases hu : ctx.packet.getD 23 0 = IpProto.udp
    · have hroom : ¬ ctx.packet.length < 34 + UdpHdr.LEN := Nat.not_lt.mpr (hudp hu)
      simp only [l4Len, if_neg ht, if_pos hu, if_neg hroom, true_iff]
      exact fun _ => Or.inr hu
    · simp only [l4Len, if_neg ht, if_neg hu]
      constructor
      · intro habort
        exact absurd habort (by decide)
      · intro hl4
        rcases hl4 hv4 with h | h
        · exact absurd h ht
        · exact absurd h hu
  · unfold observed
    rw [frameReading_other_iff.mpr ⟨h14, hv4⟩]
    exact iff_of_true rfl fun h => absurd h hv4

/-- An IPv4 frame of 192.168.1.7 with protocol `proto` and the transport bytes `l4`. -/
def ipv4Frame (proto : UInt8) (l4 : List UInt8) : List UInt8 :=
  [2, 0, 0, 0, 0, 1, 2, 0, 0, 0, 0, 2, 8, 0,
    0x45, 0, 0, 28, 0, 0, 0, 0, 64, proto, 0, 0, 192, 168, 1, 7, 10, 0, 0, 1] ++ l4

/-- A UDP packet. -/
def udpPacket : XdpContext := .ofPacket (ipv4Frame 17 [0xc0, 0, 0, 53, 0, 8, 0, 0]) (by decide)

/-- It passes. -/
theorem xdpFirewall_pass_iff_udp : (xdpFirewall .little udpPacket).verdict = XDP_PASS := by
  refine (xdpFirewall_pass_iff .little udpPacket ?_).mpr ?_
  · rw [udpPacket, XdpContext.packet_ofPacket]
    decide
  · rw [udpPacket, XdpContext.packet_ofPacket]
    decide

/-- **The observer aborts a ping**: an ICMP packet with every header complete. -/
theorem xdpFirewall_aborts_icmp :
    ¬ ∀ (e : Endian) (ctx : XdpContext), Complete ctx.packet →
      (xdpFirewall e ctx).verdict = XDP_PASS := by
  intro h
  have hpass := h .little (.ofPacket (ipv4Frame 1 [8, 0, 0xf7, 0xff, 0, 0, 0, 0]) (by decide)) (by
    rw [XdpContext.packet_ofPacket]
    decide)
  rw [xdpFirewall_eq, XdpContext.packet_ofPacket] at hpass
  exact absurd hpass (by decide)

end AyaBook.XdpLog
