import Mathlib.Data.List.GetD
import Mathlib.Data.Nat.Bitwise
import AyaBook.Lib.Endian

/-!
# Bits of words, and of byte strings

Masks with a single bit on `UInt8` and `UInt64`, as `Nat.testBit`; and a byte string as a string of
bits. Bit `i` of a byte string is in byte `i / 8`; within a byte the bits count from the least
significant one, or from the most significant one, as the byte order says. Loops over bits are
`foldlM` over a `List.range`, with one rule for their normal end and one for a failure.

* `bit_set`: replacing one byte.
* `testBit_ofBytes`: **the bits of a byte string are those of its native load**, counted from the
  least significant one on a little-endian target and from the most significant one on a
  big-endian target.
* `ext_bits`: a byte string is its bits.
-/

namespace AyaBook.Lib

/-! ## Masks -/

/-- `1 << k`, on bytes. -/
def mask8 (k : Nat) : UInt8 := 1 <<< UInt8.ofNat k

/-- `1 << k`, on 64-bit words. -/
def mask64 (k : Nat) : UInt64 := 1 <<< UInt64.ofNat k

theorem toNat_mask8 {k : Nat} (h : k < 8) : (mask8 k).toNat = 2 ^ k := by
  have hall : ∀ k : Fin 8, (mask8 k).toNat = 2 ^ (k : Nat) := by decide
  exact hall ⟨k, h⟩

theorem toNat_mask64 {k : Nat} (h : k < 64) : (mask64 k).toNat = 2 ^ k := by
  have hall : ∀ k : Fin 64, (mask64 k).toNat = 2 ^ (k : Nat) := by decide
  exact hall ⟨k, h⟩

/-- A number has the bit of a mask iff their conjunction is the mask. -/
theorem and_two_pow_eq_iff (x k : Nat) : x &&& 2 ^ k = 2 ^ k ↔ x.testBit k = true := by
  rw [Nat.and_two_pow]
  cases x.testBit k with
  | true => simp
  | false => simp [(Nat.two_pow_pos k).ne]

theorem and_mask8 (b : UInt8) {k : Nat} (h : k < 8) :
    (b &&& mask8 k == mask8 k) = b.toNat.testBit k := by
  rw [Bool.eq_iff_iff, beq_iff_eq, ← UInt8.toNat_inj, UInt8.toNat_and, toNat_mask8 h,
    and_two_pow_eq_iff]

theorem and_mask64 (w : UInt64) {k : Nat} (h : k < 64) :
    (w &&& mask64 k == mask64 k) = w.toNat.testBit k := by
  rw [Bool.eq_iff_iff, beq_iff_eq, ← UInt64.toNat_inj, UInt64.toNat_and, toNat_mask64 h,
    and_two_pow_eq_iff]

theorem testBit_or_mask8 (b : UInt8) {k : Nat} (h : k < 8) (j : Nat) :
    (b ||| mask8 k).toNat.testBit j = (b.toNat.testBit j || decide (k = j)) := by
  rw [UInt8.toNat_or, toNat_mask8 h, Nat.testBit_or, Nat.testBit_two_pow]

theorem testBit_or_mask64 (w : UInt64) {k : Nat} (h : k < 64) (j : Nat) :
    (w ||| mask64 k).toNat.testBit j = (w.toNat.testBit j || decide (k = j)) := by
  rw [UInt64.toNat_or, toNat_mask64 h, Nat.testBit_or, Nat.testBit_two_pow]

theorem testBit_and_not_mask8 (b : UInt8) {k j : Nat} (h : k < 8) (hj : j < 8) :
    (b &&& ~~~mask8 k).toNat.testBit j = (b.toNat.testBit j && !decide (k = j)) := by
  have hlt : 2 ^ k < 2 ^ 8 := Nat.pow_lt_pow_right (by decide) h
  have hnot : (~~~mask8 k).toNat = 2 ^ 8 - (2 ^ k + 1) := by
    rw [UInt8.toNat_not, toNat_mask8 h]
    show 256 - 1 - 2 ^ k = 256 - (2 ^ k + 1)
    omega
  rw [UInt8.toNat_and, hnot, Nat.testBit_and, Nat.testBit_two_pow_sub_succ hlt,
    Nat.testBit_two_pow, decide_eq_true hj, Bool.true_and]

/-! ## Counting from either end -/

/-- `i`, counted from the end of `n` that the order `e` begins with. -/
def Endian.place (e : Endian) (n i : Nat) : Nat :=
  match e with
  | .big => n - 1 - i
  | .little => i

section Place

variable (e : Endian) {n i j : Nat}

theorem place_lt (h : i < n) : e.place n i < n := by
  cases e with
  | little => exact h
  | big =>
    show n - 1 - i < n
    omega

theorem place_place (h : i < n) : e.place n (e.place n i) = i := by
  cases e with
  | little => rfl
  | big =>
    show n - 1 - (n - 1 - i) = i
    omega

theorem place_inj (hi : i < n) (hj : j < n) : e.place n i = e.place n j ↔ i = j := by
  refine ⟨fun h => ?_, fun h => h ▸ rfl⟩
  rw [← place_place e hi, h, place_place e hj]

end Place

/-! ## Byte strings as bit strings -/

/-- Bit `i` of a byte string. -/
def bit (e : Endian) (s : List UInt8) (i : Nat) : Bool :=
  (s.getD (i / 8) 0).toNat.testBit (e.place 8 (i % 8))

/-- **Replacing a byte** by one that differs in the bit `i` at most. -/
theorem bit_set (e : Endian) {s : List UInt8} {i : Nat} (hi : i / 8 < s.length) {b : UInt8}
    {v : Bool} (hb : ∀ k < 8, b.toNat.testBit k =
      if k = e.place 8 (i % 8) then v else (s.getD (i / 8) 0).toNat.testBit k) (j : Nat) :
    bit e (s.set (i / 8) b) j = if j = i then v else bit e s j := by
  have hmod (i : Nat) : i % 8 < 8 := Nat.mod_lt i (by decide)
  unfold bit
  by_cases hbyte : j / 8 = i / 8
  · have hget : (s.set (i / 8) b).getD (j / 8) 0 = b := by
      rw [hbyte, List.getD_eq_getElem?_getD, List.getElem?_set_self hi, Option.getD_some]
    have hplace : e.place 8 (j % 8) = e.place 8 (i % 8) ↔ j = i := by
      rw [place_inj e (hmod j) (hmod i)]
      omega
    rw [hget, hb _ (place_lt e (hmod j)), hbyte]
    exact if_congr hplace rfl rfl
  · have hget : (s.set (i / 8) b).getD (j / 8) 0 = s.getD (j / 8) 0 := by
      rw [List.getD_eq_getElem?_getD, List.getElem?_set_ne (Ne.symm hbyte),
        ← List.getD_eq_getElem?_getD]
    rw [hget, if_neg fun h => hbyte (by rw [h])]

theorem testBit_ofLe (s : List UInt8) (k : Nat) :
    (ofLe s).testBit k = (s.getD (k / 8) 0).toNat.testBit (k % 8) := by
  induction s generalizing k with
  | nil => simp [ofLe]
  | cons b s ih =>
    have hcons : ofLe (b :: s) = 2 ^ 8 * ofLe s + b.toNat := by
      rw [ofLe, Nat.add_comm]
      rfl
    rw [hcons, Nat.testBit_two_pow_mul_add _ b.toNat_lt]
    split
    · next hk => rw [Nat.div_eq_of_lt hk, Nat.mod_eq_of_lt hk, List.getD_cons_zero]
    · next hk =>
      have hdiv : k / 8 = (k - 8) / 8 + 1 := by omega
      have hmod : k % 8 = (k - 8) % 8 := by omega
      rw [ih, hdiv, hmod, List.getD_cons_succ]

theorem testBit_ofBytes (e : Endian) {s : List UInt8} {k : Nat} (hk : k < 8 * s.length) :
    (e.ofBytes s).testBit k = bit e s (e.place (8 * s.length) k) := by
  cases e with
  | little => exact testBit_ofLe s k
  | big =>
    have hdiv : s.length - 1 - k / 8 = (8 * s.length - 1 - k) / 8 := by omega
    have hmod : k % 8 = 8 - 1 - (8 * s.length - 1 - k) % 8 := by omega
    have hbyte : s.reverse.getD (k / 8) 0 = s.getD (s.length - 1 - k / 8) 0 := by
      rw [List.getD_eq_getElem?_getD, List.getD_eq_getElem?_getD, List.getElem?_reverse (by omega)]
    show (ofLe s.reverse).testBit k = _
    rw [testBit_ofLe, hbyte, hdiv, hmod]
    rfl

/-- **A byte string is its bits.** -/
theorem ext_bits (e : Endian) {s t : List UInt8} (hlen : s.length = t.length)
    (h : ∀ i < 8 * s.length, bit e s i = bit e t i) : s = t := by
  refine (ofBytes_inj e hlen).mp (Nat.eq_of_testBit_eq fun k => ?_)
  by_cases hk : k < 8 * s.length
  · rw [testBit_ofBytes e hk, testBit_ofBytes e (hlen ▸ hk), ← hlen]
    exact h _ (place_lt e hk)
  · have hle : 256 ^ s.length ≤ 2 ^ k := by
      rw [show 256 = 2 ^ 8 from rfl, ← pow_mul]
      exact Nat.pow_le_pow_right (by decide) (Nat.not_lt.mp hk)
    rw [Nat.testBit_lt_two_pow (Nat.lt_of_lt_of_le (ofBytes_lt e s) hle),
      Nat.testBit_lt_two_pow (Nat.lt_of_lt_of_le (ofBytes_lt e t) (hlen ▸ hle))]

/-! ## Loops over a range -/

section Loop

variable {σ : Type} {f : σ → Nat → Option σ} {a : σ} {n : Nat}

theorem foldlM_range_succ :
    (List.range (n + 1)).foldlM f a = (List.range n).foldlM f a >>= (f · n) := by
  rw [List.range_succ, List.foldlM_append]
  simp

/-- The loop rule: a body that keeps going and takes `P i` to `P (i + 1)`. -/
theorem foldlM_range_rule {P : Nat → σ → Prop} (h0 : P 0 a)
    (hstep : ∀ i < n, ∀ s, P i s → ∃ t, f s i = some t ∧ P (i + 1) t) :
    ∃ t, (List.range n).foldlM f a = some t ∧ P n t := by
  induction n with
  | zero => exact ⟨a, rfl, h0⟩
  | succ n ih =>
    obtain ⟨s, hs, hP⟩ := ih fun i hi => hstep i (Nat.lt_succ_of_lt hi)
    obtain ⟨t, ht, hPt⟩ := hstep n (Nat.lt_succ_self n) s hP
    refine ⟨t, ?_, hPt⟩
    rw [foldlM_range_succ, hs]
    exact ht

/-- A loop whose body fails at some `i < n`, in every state the body can be in, fails. -/
theorem foldlM_range_eq_none {P : σ → Prop} {i : Nat} (h0 : P a)
    (hstep : ∀ s j t, P s → f s j = some t → P t) (hnone : ∀ s, P s → f s i = none)
    (hi : i < n) : (List.range n).foldlM f a = none := by
  -- a finished part of the loop keeps `P`
  have hkeep (n : Nat) : ∀ s, (List.range n).foldlM f a = some s → P s := by
    induction n with
    | zero => exact fun s hs => Option.some.inj hs ▸ h0
    | succ n ih =>
      intro s hs
      rw [foldlM_range_succ] at hs
      obtain ⟨r, hr, hs⟩ := Option.bind_eq_some_iff.mp hs
      exact hstep r n s (ih r hr) hs
  induction n with
  | zero => exact absurd hi (Nat.not_lt_zero i)
  | succ n ih =>
    rw [foldlM_range_succ]
    rcases Nat.lt_succ_iff_lt_or_eq.mp hi with h | rfl
    · rw [ih h]
      rfl
    · cases hs : (List.range i).foldlM f a with
      | none => rfl
      | some s => exact hnone s (hkeep i s hs)

/-- Two bodies that agree on the loop's range. -/
theorem foldlM_range_congr {g : σ → Nat → Option σ} (h : ∀ i < n, ∀ s, f s i = g s i) :
    (List.range n).foldlM f a = (List.range n).foldlM g a := by
  induction n with
  | zero => rfl
  | succ n ih =>
    have hbody : (f · n) = (g · n) := funext (h n (Nat.lt_succ_self n))
    rw [foldlM_range_succ, foldlM_range_succ, ih fun i hi => h i (Nat.lt_succ_of_lt hi), hbody]

end Loop

end AyaBook.Lib
