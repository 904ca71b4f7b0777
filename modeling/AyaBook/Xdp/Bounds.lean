import AyaBook.Xdp.Drop
import AyaBook.Xdp.Log
import AyaBook.Xdp.PtrAt

/-!
# The XDP programs stay inside the packet

Every pointer `ptr_at` returns is dereferenced without a check, so the programs are safe only if
each offset and type they pass to it covers the fields they read afterwards, on every branch. This
file proves a triple of each program (`Traced.Meets`): its reads are inside `[data, data_end)`, no
sum of `ptr_at` wraps, and an error has a reason.

* `meets_callPtrAt`, `meets_read`: the triples of the two memory operations.
* `meets_tryXdpFirewall`: **both programs are safe**, for every packet, byte order and blocklist.
-/

namespace AyaBook

open AyaBook.Lib

/-- A read stays inside the packet; the sums of a `ptr_at` call do not wrap. -/
def XdpEvent.Safe (ctx : XdpContext) {L : Type} : XdpEvent L → Prop
  | ptrAt offset len => ctx.data + offset < 2 ^ 64 ∧ ctx.data + offset + len < 2 ^ 64
  | read addr len => ctx.data ≤ addr ∧ addr + len ≤ ctx.dataEnd
  | info _ => True

/-- The header asked for last extends past the packet's end. -/
def PastEnd (ctx : XdpContext) {L : Type} (trace : List (XdpEvent L)) : Prop :=
  ∃ offset len, trace.getLast? = some (.ptrAt offset len) ∧
    ctx.dataEnd < ctx.data + offset + len

/-- A packet with a whole IPv4 header whose protocol is neither TCP nor UDP. -/
def OtherProtocol (p : List UInt8) : Prop :=
  34 ≤ p.length ∧ IsIpv4 p ∧ p.getD 23 0 ≠ IpProto.tcp ∧ p.getD 23 0 ≠ IpProto.udp

variable {ctx : XdpContext} {L : Type}

/-- The last event stays the last one when earlier ones are put before it. -/
theorem PastEnd.append {t' : List (XdpEvent L)} (h : PastEnd ctx t') (t : List (XdpEvent L)) :
    PastEnd ctx (t ++ t') := by
  obtain ⟨offset, len, hlast, hpast⟩ := h
  refine ⟨offset, len, ?_, hpast⟩
  rw [List.getLast?_append, hlast]
  rfl

/-- Where the sums of `ptr_at` do not wrap, it is sound. -/
theorem XdpEvent.Safe.ptrAtSound {offset len : Nat}
    (h : (XdpEvent.ptrAt offset len : XdpEvent L).Safe ctx) : ctx.PtrAtSound offset len :=
  XdpContext.ptrAtSound_of_lt h.2

/-! ## The memory operations -/

section Triples

variable {E : List (XdpEvent L) → Unit → Prop}

/-- **A call of `ptr_at`** does not wrap; its pointer has the whole header inside the packet, and
its error means that the header extends past the end. -/
theorem meets_callPtrAt {offset len : Nat} (hw : offset + len < 2 ^ 32)
    (hE : ∀ t, PastEnd ctx t → E t ()) :
    Traced.Meets (XdpEvent.Safe ctx)
      (fun ptr => ptr = ctx.data + offset ∧ offset + len ≤ ctx.packet.length) E
      (ctx.callPtrAt offset len : Xdp L Nat) := by
  have hle := ctx.data_le
  have hlt := ctx.dataEnd_lt
  have hlen := ctx.length_packet
  unfold XdpContext.callPtrAt
  by_cases h : offset + len ≤ ctx.packet.length
  · rw [ctx.ptrAt_eq_ok hw h]
    refine ⟨fun w hm => ?_, fun a ha => ?_, fun _ he => (nomatch he)⟩
    · obtain rfl := List.mem_singleton.mp hm
      exact ⟨by omega, by omega⟩
    · obtain rfl := Except.ok.inj ha
      exact ⟨rfl, h⟩
  · rw [ctx.ptrAt_eq_error hw (Nat.not_le.mp h)]
    refine ⟨fun w hm => ?_, fun _ ha => (nomatch ha), fun e he => ?_⟩
    · obtain rfl := List.mem_singleton.mp hm
      exact ⟨by omega, by omega⟩
    · exact hE _ ⟨offset, len, rfl, by omega⟩

/-- A read of the field at `off + field` of the packet. -/
theorem meets_read {off field n : Nat} (h : off + field + n ≤ ctx.packet.length) :
    Traced.Meets (XdpEvent.Safe ctx) (fun bs => bs = bytesAt ctx.packet (off + field) n) E
      (ctx.read (ctx.data + off + field) n : Xdp L (List UInt8)) := by
  have hle := ctx.data_le
  have hlen := ctx.length_packet
  refine ⟨fun w hm => ?_, fun bs hbs => ?_, fun _ he => (nomatch he)⟩
  · obtain rfl := List.mem_singleton.mp hm
    exact ⟨by omega, by omega⟩
  · obtain rfl := Except.ok.inj hbs
    rw [Nat.add_assoc, ctx.load_eq h]

/-- **The Ethernet header**: on the IPv4 branch the frame is IPv4. -/
theorem meets_ethernet (e : Endian) {ip other : Xdp L UInt32}
    (happ : ∀ t t' r, E t' r → E (t ++ t') r) (hE : ∀ t, PastEnd ctx t → E t ())
    (hip : IsIpv4 ctx.packet → Traced.Meets (XdpEvent.Safe ctx) (fun _ => True) E ip)
    (hother : Traced.Meets (XdpEvent.Safe ctx) (fun _ => True) E other) :
    Traced.Meets (XdpEvent.Safe ctx) (fun _ => True) E (do
      let ethhdr ← ctx.callPtrAt 0 EthHdr.LEN
      let etherType ← ctx.read (ethhdr + EthHdr.etherType) 2
      if u16Load e etherType = EtherType.ipv4 e then ip else other) := by
  refine Traced.Meets.bind happ (meets_callPtrAt (by decide) hE) ?_
  rintro ethhdr ⟨rfl, h14⟩
  refine Traced.Meets.bind happ (meets_read h14) ?_
  rintro etherType rfl
  refine Traced.Meets.ite (fun h => hip ?_) (fun _ => hother)
  exact (u16Load_eq_ipv4 e (length_bytesAt h14)).mp h

end Triples

/-! ## The programs -/

/-- `xdp-drop`: an error means a header past the packet's end. -/
theorem XdpDrop.meets_tryXdpFirewall (e : Endian) (m : Blocklist) (ctx : XdpContext) :
    Traced.Meets (XdpEvent.Safe ctx) (fun _ => True) (fun t _ => PastEnd ctx t)
      (XdpDrop.tryXdpFirewall e m ctx) := by
  have happ : ∀ (t t' : List (XdpEvent XdpDrop.Log)) (_ : Unit),
      PastEnd ctx t' → PastEnd ctx (t ++ t') := fun t _ _ h => h.append t
  refine meets_ethernet e happ (fun _ h => h) (fun _ => ?_) (Traced.Meets.pure trivial)
  refine Traced.Meets.bind happ (meets_callPtrAt (by decide) fun _ h => h) ?_
  rintro ipv4hdr ⟨rfl, h34⟩
  have h26 : EthHdr.LEN + Ipv4Hdr.srcAddr + 4 ≤ ctx.packet.length := Nat.le_trans (by decide) h34
  refine Traced.Meets.bind happ (meets_read h26) fun srcAddr _ => ?_
  exact Traced.Meets.bind happ (Traced.Meets.emit trivial) fun _ _ => Traced.Meets.pure trivial

/-- The two transport headers: the port is inside the header that was asked for. -/
theorem XdpLog.meets_sourcePort {E : List (XdpEvent XdpLog.Log) → Unit → Prop} (e : Endian)
    {proto : UInt8} (happ : ∀ t t' r, E t' r → E (t ++ t') r) (hE : ∀ t, PastEnd ctx t → E t ())
    (hother : proto ≠ IpProto.tcp → proto ≠ IpProto.udp → E [] ()) :
    Traced.Meets (XdpEvent.Safe ctx) (fun _ => True) E (XdpLog.sourcePort e ctx proto) := by
  unfold XdpLog.sourcePort
  refine Traced.Meets.ite (fun _ => ?_) fun htcp => Traced.Meets.ite (fun _ => ?_) fun hudp => ?_
  · refine Traced.Meets.bind happ (meets_callPtrAt (by decide) hE) ?_
    rintro tcphdr ⟨rfl, h54⟩
    have hsource : EthHdr.LEN + Ipv4Hdr.LEN + TcpHdr.source + 2 ≤ ctx.packet.length :=
      Nat.le_trans (by decide) h54
    exact Traced.Meets.bind happ (meets_read hsource) fun _ _ => Traced.Meets.pure trivial
  · refine Traced.Meets.bind happ (meets_callPtrAt (by decide) hE) ?_
    rintro udphdr ⟨rfl, h42⟩
    have hsource : EthHdr.LEN + Ipv4Hdr.LEN + UdpHdr.source + 2 ≤ ctx.packet.length :=
      Nat.le_trans (by decide) h42
    exact Traced.Meets.bind happ (meets_read hsource) fun _ _ => Traced.Meets.pure trivial
  · exact Traced.Meets.fail (hother htcp hudp)

/-- `xdp-log`: an error means a header past the packet's end, or another protocol. -/
theorem XdpLog.meets_tryXdpFirewall (e : Endian) (ctx : XdpContext) :
    Traced.Meets (XdpEvent.Safe ctx) (fun _ => True)
      (fun t _ => PastEnd ctx t ∨ OtherProtocol ctx.packet) (XdpLog.tryXdpFirewall e ctx) := by
  have happ : ∀ (t t' : List (XdpEvent XdpLog.Log)) (_ : Unit),
      PastEnd ctx t' ∨ OtherProtocol ctx.packet →
        PastEnd ctx (t ++ t') ∨ OtherProtocol ctx.packet :=
    fun t _ _ h => h.imp_left fun hp => hp.append t
  refine meets_ethernet e happ (fun _ h => Or.inl h) (fun hip => ?_) (Traced.Meets.pure trivial)
  refine Traced.Meets.bind happ (meets_callPtrAt (by decide) fun _ h => Or.inl h) ?_
  rintro ipv4hdr ⟨rfl, h34⟩
  have h26 : EthHdr.LEN + Ipv4Hdr.srcAddr + 4 ≤ ctx.packet.length := Nat.le_trans (by decide) h34
  have h23 : EthHdr.LEN + Ipv4Hdr.proto + 1 ≤ ctx.packet.length := Nat.le_trans (by decide) h34
  refine Traced.Meets.bind happ (meets_read h26) fun srcAddr _ => ?_
  refine Traced.Meets.bind happ (meets_read h23) ?_
  rintro proto rfl
  rw [bytesAt_one h23, List.getD_cons_zero]
  refine Traced.Meets.bind happ (XdpLog.meets_sourcePort e happ (fun _ h => Or.inl h) ?_) ?_
  · exact fun htcp hudp => Or.inr ⟨h34, hip, htcp, hudp⟩
  · intro port _
    exact Traced.Meets.bind happ (Traced.Meets.emit trivial) fun _ _ => Traced.Meets.pure trivial

/-- **Both programs use `ptr_at` only where it is sound.** -/
theorem ptrAt_calls_sound (e : Endian) (m : Blocklist) (ctx : XdpContext) (offset len : Nat) :
    (XdpEvent.ptrAt offset len ∈ (XdpDrop.tryXdpFirewall e m ctx).trace →
      ctx.PtrAtSound offset len) ∧
    (XdpEvent.ptrAt offset len ∈ (XdpLog.tryXdpFirewall e ctx).trace →
      ctx.PtrAtSound offset len) := by
  constructor
  · intro hm
    exact ((XdpDrop.meets_tryXdpFirewall e m ctx).events _ hm).ptrAtSound
  · intro hm
    exact ((XdpLog.meets_tryXdpFirewall e ctx).events _ hm).ptrAtSound

/-- **Both programs stay inside the packet**: every read is inside `[data, data_end)`, no sum of
`ptr_at` wraps, and an error is returned only at a header that extends past `data_end` or, in
`xdp-log`, on a protocol that is neither TCP nor UDP. -/
theorem xdp_bounds_safe (e : Endian) (m : Blocklist) (ctx : XdpContext) :
    Traced.Meets (XdpEvent.Safe ctx) (fun _ => True) (fun t _ => PastEnd ctx t)
      (XdpDrop.tryXdpFirewall e m ctx) ∧
    Traced.Meets (XdpEvent.Safe ctx) (fun _ => True)
      (fun t _ => PastEnd ctx t ∨ OtherProtocol ctx.packet) (XdpLog.tryXdpFirewall e ctx) :=
  ⟨XdpDrop.meets_tryXdpFirewall e m ctx, XdpLog.meets_tryXdpFirewall e ctx⟩

end AyaBook
