import Mathlib.Tactic.Ring
import Mathlib.Tactic.NormNum

/-!
# Byte orders

Unsigned integers of `w` bytes in either byte order, over `Nat`: `ofBytes e` reads a byte list,
`toBytes e w` writes one, `fromBe e w` is the conversion of a big-endian value to the order `e`
(the identity or a byte swap, as the target's own order decides).

Results:
* `ofBytes_toBytes`, `toBytes_ofBytes`: reading and writing are inverse on `w` bytes.
* `fromBe_ofBytes`: **converting from big-endian after a native load reads the bytes as
  big-endian**, in either order. This is what makes network code independent of its target.
-/

namespace AyaBook.Lib

/-- The byte order of a target. -/
inductive Endian where
  | little
  | big
  deriving DecidableEq, Repr

/-- The value of a byte list, least significant byte first. -/
def ofLe : List UInt8 → Nat
  | [] => 0
  | b :: bs => b.toNat + 256 * ofLe bs

/-- The low `w` bytes of `n`, least significant byte first. -/
def toLe : Nat → Nat → List UInt8
  | 0, _ => []
  | w + 1, n => UInt8.ofNat n :: toLe w (n / 256)

namespace Endian

/-- A load of the bytes `bs` by a target of order `e`. -/
def ofBytes : Endian → List UInt8 → Nat
  | little, bs => ofLe bs
  | big, bs => ofLe bs.reverse

/-- A store of `n` into `w` bytes by a target of order `e`. -/
def toBytes : Endian → Nat → Nat → List UInt8
  | little, w, n => toLe w n
  | big, w, n => (toLe w n).reverse

end Endian

/-- `n` with its `w` bytes in the opposite order. -/
def swapBytes (w n : Nat) : Nat := ofLe (toLe w n).reverse

/-- A big-endian value of `w` bytes, converted to the order `e`. -/
def Endian.fromBe : Endian → Nat → Nat → Nat
  | little, w, n => swapBytes w n
  | big, _, n => n

/-! ## Little-endian lists -/

@[simp] theorem length_toLe (w n : Nat) : (toLe w n).length = w := by
  induction w generalizing n with
  | zero => rfl
  | succ w ih => rw [toLe, List.length_cons, ih]

theorem ofLe_lt (bs : List UInt8) : ofLe bs < 256 ^ bs.length := by
  induction bs with
  | nil => exact Nat.one_pos
  | cons b bs ih =>
    rw [ofLe, List.length_cons, pow_succ]
    have := b.toNat_lt
    omega

theorem ofLe_toLe (w n : Nat) : ofLe (toLe w n) = n % 256 ^ w := by
  induction w generalizing n with
  | zero => rw [toLe, ofLe, pow_zero, Nat.mod_one]
  | succ w ih =>
    have hmod : n % 256 ^ (w + 1) = n % 256 + 256 * (n / 256 % 256 ^ w) := by
      rw [pow_succ', Nat.mod_mul]
    rw [toLe, ofLe, ih, UInt8.toNat_ofNat', hmod]

theorem toLe_ofLe (bs : List UInt8) : toLe bs.length (ofLe bs) = bs := by
  induction bs with
  | nil => rfl
  | cons b bs ih =>
    have hb := b.toNat_lt
    have hdiv : (b.toNat + 256 * ofLe bs) / 256 = ofLe bs := by omega
    have hmod : UInt8.ofNat (b.toNat + 256 * ofLe bs) = b := by
      apply UInt8.toNat_inj.mp
      rw [UInt8.toNat_ofNat']
      omega
    rw [List.length_cons, ofLe, toLe, hdiv, hmod, ih]

/-! ## Either order -/

variable (e : Endian)

@[simp] theorem length_toBytes (w n : Nat) : (e.toBytes w n).length = w := by
  cases e
  · exact length_toLe w n
  · rw [Endian.toBytes, List.length_reverse, length_toLe]

theorem ofBytes_lt (bs : List UInt8) : e.ofBytes bs < 256 ^ bs.length := by
  cases e
  · exact ofLe_lt bs
  · rw [Endian.ofBytes, ← List.length_reverse]
    exact ofLe_lt _

/-- **What was stored is loaded**, up to the width. -/
theorem ofBytes_toBytes (w n : Nat) : e.ofBytes (e.toBytes w n) = n % 256 ^ w := by
  cases e
  · exact ofLe_toLe w n
  · rw [Endian.toBytes, Endian.ofBytes, List.reverse_reverse]
    exact ofLe_toLe w n

theorem toBytes_ofBytes (bs : List UInt8) : e.toBytes bs.length (e.ofBytes bs) = bs := by
  cases e
  · exact toLe_ofLe bs
  · rw [Endian.ofBytes, Endian.toBytes, ← List.length_reverse, toLe_ofLe, List.reverse_reverse]

/-- A load is injective on byte lists of one length. -/
theorem ofBytes_inj {as bs : List UInt8} (hl : as.length = bs.length) :
    e.ofBytes as = e.ofBytes bs ↔ as = bs := by
  refine ⟨fun h => ?_, fun h => h ▸ rfl⟩
  have := congrArg (e.toBytes as.length) h
  rwa [toBytes_ofBytes, hl, toBytes_ofBytes] at this

/-- **Conversion after a native load** gives the big-endian value of the bytes, whatever the
target's order. -/
theorem fromBe_ofBytes (bs : List UInt8) :
    e.fromBe bs.length (e.ofBytes bs) = Endian.big.ofBytes bs := by
  cases e
  · rw [Endian.fromBe, Endian.ofBytes, Endian.ofBytes, swapBytes, toLe_ofLe]
  · rfl

/-- **Conversion before a native load**: the same operation takes the big-endian value of the
bytes to the one a load of them gives. -/
theorem fromBe_big_ofBytes (bs : List UInt8) :
    e.fromBe bs.length (Endian.big.ofBytes bs) = e.ofBytes bs := by
  cases e
  · rw [Endian.fromBe, Endian.ofBytes, Endian.ofBytes, swapBytes, ← List.length_reverse, toLe_ofLe,
      List.reverse_reverse]
  · rfl

end AyaBook.Lib
