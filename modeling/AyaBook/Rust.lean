import AyaBook.Lib.Endian

/-!
# What the examples use of Rust's `core` and `std`

Native loads and stores of `u16`, `u32` and `i32`, `from_be` / `to_be`, `std::net::Ipv4Addr` and
its conversions, the layout of `repr(C)` structs, and 64-bit `usize` addition. Every operation that
depends on the target takes its byte order `e`.

* `u32FromBe_octets`: `u32::from_be` of a native load of an address's four bytes is
  `u32::from` of the address, in either byte order.
* `u16Load_eq_toBe`: a native load equals `n.to_be()` iff the two bytes are those of `n`,
  high byte first.
-/

namespace AyaBook

open AyaBook.Lib

/-! ## `u16` and `u32` -/

/-- A native load of a `u16`. -/
def u16Load (e : Endian) (bs : List UInt8) : UInt16 := UInt16.ofNat (e.ofBytes bs)

/-- A native load of a `u32`. -/
def u32Load (e : Endian) (bs : List UInt8) : UInt32 := UInt32.ofNat (e.ofBytes bs)

/-- `u16::from_be`. -/
def u16FromBe (e : Endian) (n : UInt16) : UInt16 := UInt16.ofNat (e.fromBe 2 n.toNat)

/-- `u16::to_be`: the same swap as `from_be`. -/
def u16ToBe (e : Endian) (n : UInt16) : UInt16 := u16FromBe e n

/-- `u32::from_be`. -/
def u32FromBe (e : Endian) (n : UInt32) : UInt32 := UInt32.ofNat (e.fromBe 4 n.toNat)

/-- `u32::to_ne_bytes`, the bytes a native store of `n` writes. -/
def u32ToNeBytes (e : Endian) (n : UInt32) : List UInt8 := e.toBytes 4 n.toNat

/-- A native load of an `i32`. -/
def i32Load (e : Endian) (bs : List UInt8) : Int32 := (u32Load e bs).toInt32

/-- `i32::to_ne_bytes`. -/
def i32ToNeBytes (e : Endian) (n : Int32) : List UInt8 := u32ToNeBytes e n.toUInt32

theorem u16Load_toNat (e : Endian) {bs : List UInt8} (h : bs.length = 2) :
    (u16Load e bs).toNat = e.ofBytes bs := by
  have := ofBytes_lt e bs
  rw [h] at this
  exact UInt16.toNat_ofNat_of_lt' (by simpa using this)

theorem u32Load_toNat (e : Endian) {bs : List UInt8} (h : bs.length = 4) :
    (u32Load e bs).toNat = e.ofBytes bs := by
  have := ofBytes_lt e bs
  rw [h] at this
  exact UInt32.toNat_ofNat_of_lt' (by simpa using this)

/-- **Network to host**: `from_be` of a native load is the big-endian value of the bytes. -/
theorem u16FromBe_load (e : Endian) {bs : List UInt8} (h : bs.length = 2) :
    u16FromBe e (u16Load e bs) = u16Load .big bs := by
  rw [u16FromBe, u16Load_toNat e h, ← h, fromBe_ofBytes]
  rfl

theorem u32FromBe_load (e : Endian) {bs : List UInt8} (h : bs.length = 4) :
    u32FromBe e (u32Load e bs) = u32Load .big bs := by
  rw [u32FromBe, u32Load_toNat e h, ← h, fromBe_ofBytes]
  rfl

theorem u16Load_inj (e : Endian) {as bs : List UInt8} (ha : as.length = 2) (hb : bs.length = 2) :
    u16Load e as = u16Load e bs ↔ as = bs := by
  rw [← UInt16.toNat_inj, u16Load_toNat e ha, u16Load_toNat e hb, ofBytes_inj e (ha.trans hb.symm)]

theorem u32Load_inj (e : Endian) {as bs : List UInt8} (ha : as.length = 4) (hb : bs.length = 4) :
    u32Load e as = u32Load e bs ↔ as = bs := by
  rw [← UInt32.toNat_inj, u32Load_toNat e ha, u32Load_toNat e hb, ofBytes_inj e (ha.trans hb.symm)]

/-- `to_be` of a big-endian value is what a native load of its bytes gives. -/
theorem u16ToBe_load (e : Endian) {bs : List UInt8} (h : bs.length = 2) :
    u16ToBe e (u16Load .big bs) = u16Load e bs := by
  rw [u16ToBe, u16FromBe, u16Load_toNat .big h, ← h, fromBe_big_ofBytes]
  rfl

/-- **A native load compared with `to_be`** compares the bytes, in either byte order. -/
theorem u16Load_eq_toBe (e : Endian) {as bs : List UInt8} (ha : as.length = 2)
    (hb : bs.length = 2) : u16Load e as = u16ToBe e (u16Load .big bs) ↔ as = bs := by
  rw [u16ToBe_load e hb, u16Load_inj e ha hb]

/-- A `u16` stored natively and loaded natively. -/
theorem u16Load_toBytes (e : Endian) (n : UInt16) : u16Load e (e.toBytes 2 n.toNat) = n := by
  have h : n.toNat % 256 ^ 2 = n.toNat := Nat.mod_eq_of_lt (by simpa using n.toNat_lt)
  rw [u16Load, ofBytes_toBytes, h, UInt16.ofNat_toNat]

@[simp] theorem length_u32ToNeBytes (e : Endian) (n : UInt32) : (u32ToNeBytes e n).length = 4 :=
  length_toBytes e 4 _

/-- **What was stored natively is loaded natively.** -/
theorem u32Load_toNeBytes (e : Endian) (n : UInt32) : u32Load e (u32ToNeBytes e n) = n := by
  have h : n.toNat % 256 ^ 4 = n.toNat := Nat.mod_eq_of_lt (by simpa using n.toNat_lt)
  rw [u32Load, u32ToNeBytes, ofBytes_toBytes, h, UInt32.ofNat_toNat]

theorem u32ToNeBytes_injective (e : Endian) : Function.Injective (u32ToNeBytes e) :=
  Function.LeftInverse.injective (u32Load_toNeBytes e)

@[simp] theorem length_i32ToNeBytes (e : Endian) (n : Int32) : (i32ToNeBytes e n).length = 4 :=
  length_u32ToNeBytes e _

theorem i32Load_toNeBytes (e : Endian) (n : Int32) : i32Load e (i32ToNeBytes e n) = n := by
  rw [i32Load, i32ToNeBytes, u32Load_toNeBytes, Int32.toInt32_toUInt32]

/-- `u32::try_from` of an `i64`. -/
def u32TryFrom (n : Int64) : Option UInt32 :=
  if 0 ≤ n.toInt ∧ n.toInt < 2 ^ 32 then some (UInt32.ofNat n.toInt.toNat) else none

theorem u32TryFrom_of_neg {n : Int64} (h : n.toInt < 0) : u32TryFrom n = none :=
  if_neg fun hn => absurd hn.1 (Int.not_le.mpr h)

/-! ## `std::net::Ipv4Addr` -/

/-- `std::net::Ipv4Addr`: the dotted address `a.b.c.d`. -/
structure Ipv4Addr where
  a : UInt8
  b : UInt8
  c : UInt8
  d : UInt8
  deriving DecidableEq, Repr

namespace Ipv4Addr

/-- `Ipv4Addr::octets`. -/
def octets (x : Ipv4Addr) : List UInt8 := [x.a, x.b, x.c, x.d]

/-- `Ipv4Addr::from([u8; 4])`. -/
def ofOctets (bs : List UInt8) : Ipv4Addr :=
  ⟨bs.getD 0 0, bs.getD 1 0, bs.getD 2 0, bs.getD 3 0⟩

/-- `u32::from(Ipv4Addr)`, the big-endian value of the octets on every target. -/
def toU32 (x : Ipv4Addr) : UInt32 := u32Load .big x.octets

/-- `Ipv4Addr::from(u32)`, from the big-endian bytes on every target. -/
def ofU32 (n : UInt32) : Ipv4Addr := ofOctets (u32ToNeBytes .big n)

@[simp] theorem length_octets (x : Ipv4Addr) : x.octets.length = 4 := rfl

theorem octets_injective : Function.Injective octets := by
  rintro ⟨a, b, c, d⟩ ⟨a', b', c', d'⟩ h
  simpa [octets] using h

theorem toU32_injective : Function.Injective toU32 := fun _ _ h =>
  octets_injective ((u32Load_inj .big rfl rfl).mp h)

/-- The conversion to `u32` and back. -/
@[simp] theorem ofU32_toU32 (x : Ipv4Addr) : ofU32 x.toU32 = x := by
  have h : u32ToNeBytes .big x.toU32 = x.octets := by
    rw [u32ToNeBytes, toU32, u32Load_toNat .big (length_octets x)]
    exact toBytes_ofBytes .big x.octets
  rw [ofU32, h]
  rfl

end Ipv4Addr

/-- **`from_be` of the loaded address bytes is `u32::from` of the address.** -/
theorem u32FromBe_octets (e : Endian) (x : Ipv4Addr) :
    u32FromBe e (u32Load e x.octets) = x.toU32 :=
  u32FromBe_load e x.length_octets

/-! ## `repr(C)` -/

/-- The size and the alignment of a field's type. -/
structure Layout where
  size : Nat
  align : Nat

/-- The first multiple of `align` from `off` on. -/
def alignUp (off align : Nat) : Nat := (off + align - 1) / align * align

/-- `offset_of!` for a `repr(C)` struct: the fields in order from `off` on, each at the next
multiple of its alignment. -/
def offsetOf {F : Type} [DecidableEq F] (layout : F → Layout) : Nat → List F → F → Nat
  | off, [], _ => off
  | off, g :: gs, f =>
    let start := alignUp off (layout g).align
    if g = f then start else offsetOf layout (start + (layout g).size) gs f

/-! ## `usize` -/

/-- `usize` addition with overflow checks off. -/
def usizeAdd (a b : Nat) : Nat := (a + b) % 2 ^ 64

theorem usizeAdd_of_lt {a b : Nat} (h : a + b < 2 ^ 64) : usizeAdd a b = a + b :=
  Nat.mod_eq_of_lt h

/-- A sum of three wraps as one. -/
theorem usizeAdd_usizeAdd (a b c : Nat) :
    usizeAdd (usizeAdd a b) c = (a + b + c) % 2 ^ 64 :=
  Nat.mod_add_mod (a + b) (2 ^ 64) c

end AyaBook
