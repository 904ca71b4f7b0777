import AyaBook.Xdp.Context

/-!
# `ptr_at` as a bounds check

`ptr_at` is a safe function: whatever the offset, it is to hand out a pointer only into the
packet. It compares `start + offset + len` with the packet's end, and the eBPF crates are built
without overflow checks, so for offsets near the top of `usize` the sum it compares is not the one
that is meant.

* `ptrAtSound_of_lt`: without a wrap `ptr_at` is sound.
* `ptrAt_of_wraps`: **a sum that wraps to an address before the packet's end** makes `ptr_at`
  return a pointer outside the packet.
* `ptrAtSound_iff`: nothing else goes wrong.
-/

namespace AyaBook.XdpContext

variable (ctx : XdpContext)

/-- The bytes `[addr, addr + len)` are inside the packet. -/
def InPacket (addr len : Nat) : Prop := ctx.data ≤ addr ∧ addr + len ≤ ctx.dataEnd

/-- **What `ptr_at` is for**: it succeeds exactly on the ranges inside the packet, as unbounded
numbers, and returns where they start. -/
structure PtrAtSound (offset len : Nat) : Prop where
  ok_iff : (∃ ptr, ctx.ptrAt offset len = .ok ptr) ↔ ctx.InPacket (ctx.data + offset) len
  ptr_eq : ∀ ptr, ctx.ptrAt offset len = .ok ptr → ptr = ctx.data + offset

/-- The sum in `ptr_at` wraps around, to an address not past the packet's end. -/
def Wraps (offset len : Nat) : Prop :=
  2 ^ 64 ≤ ctx.data + offset + len ∧ ctx.data + offset + len ≤ 2 ^ 64 + ctx.dataEnd

variable {ctx} {offset len : Nat}

/-- **Without a wrap `ptr_at` is sound.** -/
theorem ptrAtSound_of_lt (h : ctx.data + offset + len < 2 ^ 64) : ctx.PtrAtSound offset len where
  ok_iff := by
    simp only [ptrAt_eq_ok_iff, Nat.mod_eq_of_lt h, exists_and_left, exists_eq', and_true]
    exact (and_iff_right (Nat.le_add_right ctx.data offset)).symm
  ptr_eq ptr hptr := by
    rw [ptrAt_eq_ok_iff, usizeAdd_of_lt (by omega)] at hptr
    exact hptr.2.symm

/-- A sum that wraps to an address past the end is refused, as it should be. -/
theorem ptrAtSound_of_error (hle : ctx.dataEnd < ctx.data + offset + len)
    (herr : ctx.ptrAt offset len = .error ()) : ctx.PtrAtSound offset len where
  ok_iff := by
    rw [herr]
    constructor
    · rintro ⟨ptr, hok⟩
      exact nomatch hok
    · rintro ⟨-, hin⟩
      exact absurd hin (Nat.not_le.mpr hle)
  ptr_eq ptr hptr := by
    rw [herr] at hptr
    exact nomatch hptr

/-- **After a wrap below the end `ptr_at` hands out a pointer outside the packet.** -/
theorem ptrAt_of_wraps (hoffset : offset < 2 ^ 64) (hlen : len ≤ 2 ^ 16)
    (h : ctx.Wraps offset len) :
    ∃ ptr, ctx.ptrAt offset len = .ok ptr ∧ ¬ ctx.InPacket ptr len := by
  obtain ⟨hlo, hhi⟩ := h
  have hend := ctx.dataEnd_lt
  refine ⟨_, ptrAt_eq_ok_iff.mpr ⟨by omega, rfl⟩, ?_⟩
  unfold usizeAdd
  rintro ⟨hge, hle⟩
  -- the pointer is below `data` if `data + offset` wraps, and within 2^16 of 2^64 if only the
  -- length makes the sum wrap
  omega

/-- **When `ptr_at` is sound**: for every packet, every `usize` offset and every type of at most
2^16 bytes, iff the sum does not wrap around to an address before the packet's end. -/
theorem ptrAtSound_iff (ctx : XdpContext) (offset : UInt64) (hlen : len ≤ 2 ^ 16) :
    ctx.PtrAtSound offset.toNat len ↔ ¬ ctx.Wraps offset.toNat len := by
  have hoffset : offset.toNat < 2 ^ 64 := offset.toNat_lt
  constructor
  · intro hsound hwraps
    obtain ⟨ptr, hok, hout⟩ := ptrAt_of_wraps hoffset hlen hwraps
    have hin := hsound.ok_iff.mp ⟨ptr, hok⟩
    rw [hsound.ptr_eq ptr hok] at hout
    exact hout hin
  · intro hwraps
    by_cases hlt : ctx.data + offset.toNat + len < 2 ^ 64
    · exact ptrAtSound_of_lt hlt
    have hend := ctx.dataEnd_lt
    have hpast : 2 ^ 64 + ctx.dataEnd < ctx.data + offset.toNat + len :=
      Nat.not_le.mp fun hle => hwraps ⟨Nat.not_lt.mp hlt, hle⟩
    have hdata := ctx.data_le
    refine ptrAtSound_of_error (by omega) (ptrAt_eq_error_iff.mpr ?_)
    omega

/-- A packet of 100 bytes at address 100. -/
def hundred : XdpContext := ⟨fun _ => 0, 100, 200, by decide, by decide⟩

/-- An IPv4 header at the usual place. -/
theorem ptrAtSound_iff_ipv4 : hundred.PtrAtSound (14 : UInt64).toNat 20 :=
  (ptrAtSound_iff hundred 14 (by decide)).mpr fun h => absurd h.1 (by decide)

/-- **`ptr_at` hands out the address 50**, before the packet: the offset is 2^64 - 50. -/
theorem ptrAt_leaves_packet :
    ¬ ∀ (ctx : XdpContext) (offset : UInt64) (len : Nat), len ≤ 2 ^ 16 →
      ctx.PtrAtSound offset.toNat len := by
  intro h
  have hok : hundred.ptrAt (0 - 50 : UInt64).toNat 14 = .ok 50 := by decide
  have hptr := (h hundred (0 - 50) 14 (by decide)).ptr_eq 50 hok
  exact absurd hptr (by decide)

end AyaBook.XdpContext
