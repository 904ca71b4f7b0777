import AyaBook.Lib.Traced
import AyaBook.Net.Reading

/-!
# XDP programs: the context, `ptr_at` and packet reads

An `XdpContext` is the memory an XDP program sees and the two packet pointers of `xdp_md`, which
are 32 bits wide. `ptr_at::<T>(ctx, offset)` is `ptrAt ctx offset (size_of T)`, with wrapping
`usize` additions; `xdp-log` and `xdp-drop` have the same function (the latter reborrows the
pointer, `&*ptr`, which reads nothing). A program is a `Traced` computation whose events are its
calls of `ptr_at`, its reads through the pointers it got, and its `info!` records.

* `ptrAt_eq_ok_iff`, `ptrAt_eq_error_iff`: what `ptr_at` answers, wrapped or not.
* `ptrAt_eq_ok`, `ptrAt_eq_error`: for offsets and sizes that cannot wrap, `ptr_at` answers
  whether the range lies inside the packet.
* `load_eq`: a load inside the packet reads the packet's bytes.
* `outcome_ptrAt`, `outcome_read`, …: what each step of a program adds to its outcome.
-/

namespace AyaBook

open AyaBook.Lib

/-- What an XDP program is given: memory, and a packet in it between two 32-bit pointers. -/
structure XdpContext where
  mem : Nat → UInt8
  data : Nat
  dataEnd : Nat
  data_le : data ≤ dataEnd
  dataEnd_lt : dataEnd < 2 ^ 32

/-- `xdp_action::XDP_ABORTED`. -/
def XDP_ABORTED : UInt32 := 0

/-- `xdp_action::XDP_DROP`. -/
def XDP_DROP : UInt32 := 1

/-- `xdp_action::XDP_PASS`. -/
def XDP_PASS : UInt32 := 2

/-- What a program does that can be seen: a call of `ptr_at`, a read, a log record. -/
inductive XdpEvent (L : Type) where
  | ptrAt (offset len : Nat)
  | read (addr len : Nat)
  | info (record : L)

/-- The record of an `info!`. -/
def XdpEvent.record? {L : Type} : XdpEvent L → Option L
  | info r => some r
  | _ => none

/-- An XDP program with log records `L`; its errors are `()`. -/
abbrev Xdp (L : Type) := Traced (XdpEvent L) Unit

/-- The entry point's `match`: an error becomes `XDP_ABORTED`. -/
def Xdp.outcome {L : Type} (x : Xdp L UInt32) : Outcome UInt32 L :=
  ⟨x.handle fun _ => XDP_ABORTED, x.trace.filterMap XdpEvent.record?⟩

namespace XdpContext

variable (ctx : XdpContext)

/-- The packet's bytes. -/
def packet : List UInt8 :=
  (List.range (ctx.dataEnd - ctx.data)).map fun i => ctx.mem (ctx.data + i)

/-- The bytes `[addr, addr + n)` of memory. -/
def load (addr n : Nat) : List UInt8 := (List.range n).map fun i => ctx.mem (addr + i)

/-- A packet of bytes, placed at address 0. -/
def ofPacket (p : List UInt8) (h : p.length < 2 ^ 32) : XdpContext where
  mem i := p.getD i 0
  data := 0
  dataEnd := p.length
  data_le := Nat.zero_le _
  dataEnd_lt := h

/-- `ptr_at::<T>(ctx, offset)` with `len = size_of::<T>()`. -/
def ptrAt (offset len : Nat) : Except Unit Nat :=
  let start := ctx.data
  let stop := ctx.dataEnd
  if usizeAdd (usizeAdd start offset) len > stop then .error ()
  else .ok (usizeAdd start offset)

/-- A call of `ptr_at`. -/
def callPtrAt {L : Type} (offset len : Nat) : Xdp L Nat :=
  ⟨[.ptrAt offset len], ctx.ptrAt offset len⟩

/-- A read of `n` bytes through a pointer. -/
def read {L : Type} (addr n : Nat) : Xdp L (List UInt8) :=
  ⟨[.read addr n], .ok (ctx.load addr n)⟩

/-! ## Packet bytes -/

@[simp] theorem length_packet : ctx.packet.length = ctx.dataEnd - ctx.data := by
  rw [packet, List.length_map, List.length_range]

@[simp] theorem length_load (addr n : Nat) : (ctx.load addr n).length = n := by
  rw [load, List.length_map, List.length_range]

theorem packet_ofPacket (p : List UInt8) (h : p.length < 2 ^ 32) :
    (ofPacket p h).packet = p := by
  apply List.ext_getElem
  · rw [length_packet]
    exact Nat.sub_zero _
  · intro i hi hi'
    simp only [packet, ofPacket, List.getElem_map, List.getElem_range, Nat.zero_add]
    exact List.getD_eq_getElem p 0 hi'

/-- **A load inside the packet** reads the packet's bytes. -/
theorem load_eq {off n : Nat} (h : off + n ≤ ctx.packet.length) :
    ctx.load (ctx.data + off) n = bytesAt ctx.packet off n := by
  have hlen := ctx.length_packet
  apply List.ext_getElem
  · rw [length_load, length_bytesAt h]
  · intro i hi hi'
    simp only [bytesAt, packet, load, List.getElem_map, List.getElem_range, List.getElem_take,
      List.getElem_drop, Nat.add_assoc]

/-! ## `ptr_at` -/

variable {ctx} {offset len : Nat}

/-- **What `ptr_at` computes**: the end of the range is compared after it has wrapped. -/
theorem ptrAt_eq_ok_iff {ptr : Nat} : ctx.ptrAt offset len = .ok ptr ↔
    (ctx.data + offset + len) % 2 ^ 64 ≤ ctx.dataEnd ∧ usizeAdd ctx.data offset = ptr := by
  unfold ptrAt
  simp only
  rw [usizeAdd_usizeAdd]
  split
  · rename_i hpast
    constructor
    · intro h
      exact nomatch h
    · rintro ⟨hle, -⟩
      exact absurd hle (Nat.not_le.mpr hpast)
  · rename_i hle
    rw [Except.ok.injEq]
    exact (and_iff_right (Nat.not_lt.mp hle)).symm

theorem ptrAt_eq_error_iff : ctx.ptrAt offset len = .error () ↔
    ctx.dataEnd < (ctx.data + offset + len) % 2 ^ 64 := by
  cases h : ctx.ptrAt offset len with
  | ok ptr =>
    have hle := (ptrAt_eq_ok_iff.mp h).1
    exact iff_of_false (fun he => nomatch he) (Nat.not_lt.mpr hle)
  | error =>
    refine iff_of_true rfl (Nat.not_le.mp fun hle => ?_)
    rw [ptrAt_eq_ok_iff.mpr ⟨hle, rfl⟩] at h
    exact nomatch h

variable (ctx)

/-- The sums of `ptr_at` do not wrap for the offsets and sizes the programs use. -/
theorem sum_lt (h : offset + len < 2 ^ 32) : ctx.data + offset + len < 2 ^ 64 := by
  have := ctx.data_le
  have := ctx.dataEnd_lt
  omega

theorem ptrAt_eq_ok (hw : offset + len < 2 ^ 32) (h : offset + len ≤ ctx.packet.length) :
    ctx.ptrAt offset len = .ok (ctx.data + offset) := by
  have hlt := ctx.sum_lt hw
  have := ctx.data_le
  rw [length_packet] at h
  refine ptrAt_eq_ok_iff.mpr ⟨?_, usizeAdd_of_lt (by omega)⟩
  rw [Nat.mod_eq_of_lt hlt]
  omega

theorem ptrAt_eq_error (hw : offset + len < 2 ^ 32) (h : ctx.packet.length < offset + len) :
    ctx.ptrAt offset len = .error () := by
  have := ctx.data_le
  rw [length_packet] at h
  rw [ptrAt_eq_error_iff, Nat.mod_eq_of_lt (ctx.sum_lt hw)]
  omega

end XdpContext

/-! ## Outcomes, step by step -/

section Outcome

variable {L : Type} (ctx : XdpContext)

/-- After a silent event and a returned value, the outcome is that of the rest. -/
theorem outcome_silent {α : Type} {w : XdpEvent L} (hw : w.record? = none) (a : α)
    (f : α → Xdp L UInt32) : Xdp.outcome ((⟨[w], .ok a⟩ : Xdp L α) >>= f) = Xdp.outcome (f a) := by
  unfold Xdp.outcome
  rw [Traced.mk_ok_bind, List.singleton_append, List.filterMap_cons_none hw]
  rfl

/-- A header inside the packet: go on with the pointer to it. -/
theorem outcome_ptrAt {offset len : Nat} (hw : offset + len < 2 ^ 32)
    (h : offset + len ≤ ctx.packet.length) (f : Nat → Xdp L UInt32) :
    Xdp.outcome (ctx.callPtrAt offset len >>= f) = Xdp.outcome (f (ctx.data + offset)) := by
  rw [XdpContext.callPtrAt, ctx.ptrAt_eq_ok hw h]
  exact outcome_silent rfl _ f

/-- A header past the packet's end: abort. -/
theorem outcome_ptrAt_error {offset len : Nat} (hw : offset + len < 2 ^ 32)
    (h : ctx.packet.length < offset + len) (f : Nat → Xdp L UInt32) :
    Xdp.outcome (ctx.callPtrAt offset len >>= f) = ⟨XDP_ABORTED, []⟩ := by
  rw [XdpContext.callPtrAt, ctx.ptrAt_eq_error hw h]
  rfl

/-- A field inside the packet: go on with its bytes. -/
theorem outcome_read {off field n : Nat} (h : off + field + n ≤ ctx.packet.length)
    (f : List UInt8 → Xdp L UInt32) :
    Xdp.outcome (ctx.read (ctx.data + off + field) n >>= f) =
      Xdp.outcome (f (bytesAt ctx.packet (off + field) n)) := by
  rw [XdpContext.read, Nat.add_assoc, ctx.load_eq h]
  exact outcome_silent rfl _ f

/-- **The Ethernet header**, as both programs read it: abort on a packet without one, then branch
on the ethertype. -/
theorem outcome_ethernet (e : Endian) (ip other : Xdp L UInt32) :
    Xdp.outcome (do
      let ethhdr ← ctx.callPtrAt 0 EthHdr.LEN
      let etherType ← ctx.read (ethhdr + EthHdr.etherType) 2
      if u16Load e etherType = EtherType.ipv4 e then ip else other) =
    if ctx.packet.length < 14 then ⟨XDP_ABORTED, []⟩
    else if IsIpv4 ctx.packet then Xdp.outcome ip else Xdp.outcome other := by
  by_cases h14 : ctx.packet.length < 14
  · rw [outcome_ptrAt_error ctx (by decide) h14, if_pos h14]
  have hmatch : u16Load e (bytesAt ctx.packet (0 + EthHdr.etherType) 2) = EtherType.ipv4 e ↔
      IsIpv4 ctx.packet := u16Load_eq_ipv4 e (length_bytesAt (Nat.not_lt.mp h14))
  rw [outcome_ptrAt ctx (by decide) (Nat.not_lt.mp h14),
    outcome_read ctx (show 0 + EthHdr.etherType + 2 ≤ _ from Nat.not_lt.mp h14), if_neg h14]
  by_cases hip : IsIpv4 ctx.packet
  · rw [if_pos (hmatch.mpr hip), if_pos hip]
  · rw [if_neg fun h => hip (hmatch.mp h), if_neg hip]

/-- **The IPv4 header**, as both programs read it: abort on a packet without a whole one, then go
on with the pointer to it and the octets of the source address. -/
theorem outcome_ipv4 (f : Nat → List UInt8 → Xdp L UInt32) :
    Xdp.outcome (do
      let ipv4hdr ← ctx.callPtrAt EthHdr.LEN Ipv4Hdr.LEN
      let srcAddr ← ctx.read (ipv4hdr + Ipv4Hdr.srcAddr) 4
      f ipv4hdr srcAddr) =
    if ctx.packet.length < 34 then ⟨XDP_ABORTED, []⟩
    else Xdp.outcome (f (ctx.data + 14) (addrAt ctx.packet 26).octets) := by
  by_cases h34 : ctx.packet.length < 34
  · rw [outcome_ptrAt_error ctx (by decide) h34, if_pos h34]
  have h26 : EthHdr.LEN + Ipv4Hdr.srcAddr + 4 ≤ ctx.packet.length :=
    Nat.le_trans (by decide) (Nat.not_lt.mp h34)
  rw [outcome_ptrAt ctx (by decide) (Nat.not_lt.mp h34), outcome_read ctx h26, if_neg h34,
    bytesAt_four h26]
  rfl

/-- A log record, then a verdict. -/
theorem outcome_info (r : L) (v : UInt32) :
    Xdp.outcome (Traced.emit (.info r) >>= fun _ => pure v) = ⟨v, [r]⟩ := rfl

end Outcome

end AyaBook
