import AyaBook.Lib.Bits

/-!
# `__BindgenBitfieldUnit`, and the bit-fields of `iphdr` and `sock_common`

Model of the code that stands at the top of the generated bindings
(`examples/cgroup-skb-egress/cgroup-skb-egress-ebpf/src/bindings.rs`,
`examples/kprobetcp/kprobetcp-ebpf/src/binding.rs`): C bit-fields as offset and width in a byte
array, read and written bit by bit; and of the accessors of two structs over it.

A `usize` is a `Nat`, and `none` is the panic of an index beyond the storage. That is enough: where
a sum of `usize`s wraps, near 2^64, the bit at the offset itself is beyond any real storage, and the
loop gets to it. The `debug_assert!`s and the overflow checks of shifts are not compiled into the
examples' profiles; `bit_width <= 64` of the assertions is a hypothesis where the value of a field
matters, since a wider field's shifts wrap.

Results:
* `panics_iff`: **no panic iff the field is within the storage**, which the assertions do not say.
* `range_of_load`: **a field of at most 64 bits is a range of bits of the storage's native load**.
* `lens_laws`: for such a field, what was set is got, setting what was got changes nothing, the
  later write wins, and disjoint fields are independent.
* `Iphdr.newBitfield1_bijective`, `SockCommon.newBitfield1_fields`: **a constructor's arguments are
  what the accessors return**.
-/

namespace AyaBook.BindgenBitfieldUnit

open AyaBook.Lib

/-- `get_bit`. `bit_index` is `7 - (index % 8)` on a big-endian target. -/
def getBit (e : Endian) (storage : List UInt8) (index : Nat) : Option Bool :=
  storage[index / 8]?.map fun byte =>
    let mask := mask8 (e.place 8 (index % 8))
    byte &&& mask == mask

/-- `set_bit`. -/
def setBit (e : Endian) (storage : List UInt8) (index : Nat) (val : Bool) :
    Option (List UInt8) :=
  storage[index / 8]?.map fun byte =>
    let mask := mask8 (e.place 8 (index % 8))
    storage.set (index / 8) (if val then byte ||| mask else byte &&& ~~~mask)

/-- The body of the loop of `get`. `index` is `bit_width - 1 - i` on a big-endian target. -/
def getStep (e : Endian) (storage : List UInt8) (bitOffset bitWidth : Nat) (val : UInt64)
    (i : Nat) : Option UInt64 := do
  if ← getBit e storage (i + bitOffset) then
    pure (val ||| mask64 (e.place bitWidth i))
  else
    pure val

/-- `get`. -/
def get (e : Endian) (storage : List UInt8) (bitOffset : Nat) (bitWidth : UInt8) :
    Option UInt64 :=
  (List.range bitWidth.toNat).foldlM (getStep e storage bitOffset bitWidth.toNat) 0

/-- The body of the loop of `set`. -/
def setStep (e : Endian) (bitOffset bitWidth : Nat) (val : UInt64) (storage : List UInt8)
    (i : Nat) : Option (List UInt8) :=
  let mask := mask64 i
  setBit e storage (e.place bitWidth i + bitOffset) (val &&& mask == mask)

/-- `set`. -/
def set (e : Endian) (storage : List UInt8) (bitOffset : Nat) (bitWidth : UInt8) (val : UInt64) :
    Option (List UInt8) :=
  (List.range bitWidth.toNat).foldlM (setStep e bitOffset bitWidth.toNat val) storage

/-! ## One bit -/

section Bit

variable {e : Endian} {s : List UInt8} {i : Nat}

theorem getBit_eq (h : i < 8 * s.length) : getBit e s i = some (bit e s i) := by
  have hi : i / 8 < s.length := by omega
  have hplace : e.place 8 (i % 8) < 8 := place_lt e (Nat.mod_lt i (by decide))
  unfold getBit bit
  rw [List.getElem?_eq_getElem hi, Option.map_some, List.getD_eq_getElem s 0 hi]
  exact congrArg some (and_mask8 _ hplace)

theorem getBit_eq_none (h : 8 * s.length ≤ i) : getBit e s i = none := by
  unfold getBit
  rw [List.getElem?_eq_none (by omega), Option.map_none]

theorem setBit_eq_none (h : 8 * s.length ≤ i) (val : Bool) : setBit e s i val = none := by
  unfold setBit
  rw [List.getElem?_eq_none (by omega), Option.map_none]

theorem length_setBit {t : List UInt8} {val : Bool} (h : setBit e s i val = some t) :
    t.length = s.length := by
  obtain ⟨byte, -, rfl⟩ := Option.map_eq_some_iff.mp h
  exact List.length_set

theorem setBit_spec (h : i < 8 * s.length) (val : Bool) :
    ∃ t, setBit e s i val = some t ∧ t.length = s.length ∧
      ∀ j, bit e t j = if j = i then val else bit e s j := by
  have hi : i / 8 < s.length := by omega
  have hplace : e.place 8 (i % 8) < 8 := place_lt e (Nat.mod_lt i (by decide))
  unfold setBit
  rw [List.getElem?_eq_getElem hi, Option.map_some, ← List.getD_eq_getElem s 0 hi]
  refine ⟨_, rfl, List.length_set, bit_set e hi fun k hk => ?_⟩
  cases val with
  | true =>
    rw [if_pos rfl, testBit_or_mask8 _ hplace]
    by_cases h : k = e.place 8 (i % 8) <;> simp [h, eq_comm]
  | false =>
    rw [if_neg Bool.false_ne_true, testBit_and_not_mask8 _ hplace hk]
    by_cases h : k = e.place 8 (i % 8) <;> simp [h, eq_comm]

end Bit

/-! ## A field -/

section Field

variable (e : Endian) {s : List UInt8} {off : Nat} {w : UInt8}

/-- What `get` reads: bit `j` of the value is the bit `j` of the field, counted from the end its
least significant bit is at. -/
theorem get_spec (hw : w.toNat ≤ 64) (h : off + w.toNat ≤ 8 * s.length) :
    ∃ v, get e s off w = some v ∧ ∀ j, v.toNat.testBit j =
      (decide (j < w.toNat) && bit e s (e.place w.toNat j + off)) := by
  generalize hn : w.toNat = n at hw h
  -- after `i` iterations, the bits that have been read
  let P (i : Nat) (v : UInt64) : Prop := ∀ j, v.toNat.testBit j =
    (decide (j < n) && decide (e.place n j < i) && bit e s (e.place n j + off))
  have hloop : ∃ v, (List.range n).foldlM (getStep e s off n) 0 = some v ∧ P n v := by
    refine foldlM_range_rule (fun j => ?_) fun i hi v hv => ?_
    · simp
    · have hlt : e.place n i < 64 := Nat.lt_of_lt_of_le (place_lt e hi) hw
      have hget : getBit e s (i + off) = some (bit e s (i + off)) := getBit_eq (by omega)
      unfold getStep
      rw [hget]
      refine ⟨if bit e s (i + off) then v ||| mask64 (e.place n i) else v, ?_, fun j => ?_⟩
      · cases bit e s (i + off) <;> rfl
      · have hor : (if bit e s (i + off) then v ||| mask64 (e.place n i) else v).toNat.testBit j =
            (v.toNat.testBit j || (bit e s (i + off) && decide (e.place n i = j))) := by
          cases bit e s (i + off) with
          | true => rw [if_pos rfl, testBit_or_mask64 v hlt, Bool.true_and]
          | false => rw [if_neg Bool.false_ne_true, Bool.false_and, Bool.or_false]
        rw [hor, hv j]
        by_cases hj : j < n
        · by_cases hij : e.place n j = i
          · subst hij
            simp [place_place e hj, hj]
          · have hne : e.place n i ≠ j := fun h => hij (h ▸ place_place e hi)
            have hlt : e.place n j < i + 1 ↔ e.place n j < i := by omega
            simp [hne, hlt]
        · have hne : e.place n i ≠ j := fun h => hj (h ▸ place_lt e hi)
          simp [hj, hne]
  obtain ⟨v, hv, hbits⟩ := hloop
  refine ⟨v, by rw [get, hn, hv], fun j => ?_⟩
  by_cases hj : j < n
  · rw [hbits, decide_eq_true (place_lt e hj), Bool.and_true]
  · rw [hbits, decide_eq_false hj]
    rfl

/-- What `set` writes: the field's bits, and no other. -/
theorem set_spec (hw : w.toNat ≤ 64) (h : off + w.toNat ≤ 8 * s.length) (val : UInt64) :
    ∃ t, set e s off w val = some t ∧ t.length = s.length ∧ ∀ k, bit e t k =
      if off ≤ k ∧ k < off + w.toNat then val.toNat.testBit (e.place w.toNat (k - off))
      else bit e s k := by
  generalize hn : w.toNat = n at hw h
  -- after `i` iterations, the bits that have been written
  let P (i : Nat) (t : List UInt8) : Prop := t.length = s.length ∧ ∀ k, bit e t k =
    if off ≤ k ∧ k < off + n ∧ e.place n (k - off) < i then val.toNat.testBit (e.place n (k - off))
    else bit e s k
  have hloop : ∃ t, (List.range n).foldlM (setStep e off n val) s = some t ∧ P n t := by
    refine foldlM_range_rule ⟨rfl, fun k => ?_⟩ fun i hi t ht => ?_
    · rw [if_neg fun h => Nat.not_lt_zero _ h.2.2]
    · have hplace := place_lt e hi
      have hin : e.place n i + off < 8 * t.length := by
        rw [ht.1]
        omega
      obtain ⟨u, hu, hlen, hbits⟩ := setBit_spec hin (val &&& mask64 i == mask64 i)
      refine ⟨u, hu, hlen.trans ht.1, fun k => ?_⟩
      rw [hbits, and_mask64 val (Nat.lt_of_lt_of_le hi hw)]
      by_cases hk : k = e.place n i + off
      · have hsub : k - off = e.place n i := by omega
        rw [if_pos hk, if_pos ⟨by omega, by omega, by rw [hsub, place_place e hi]; omega⟩, hsub,
          place_place e hi]
      · rw [if_neg hk, ht.2]
        refine if_congr (and_congr_right fun hlo => and_congr_right fun hhi => ?_) rfl rfl
        have hne : e.place n (k - off) ≠ i := by
          intro h
          have hback : e.place n i = k - off := h ▸ place_place e (by omega)
          omega
        omega
  obtain ⟨t, ht, hlen, hbits⟩ := hloop
  refine ⟨t, by rw [set, hn, ht], hlen, fun k => ?_⟩
  rw [hbits]
  refine if_congr (and_congr_right fun hlo => ⟨And.left, fun hhi => ⟨hhi, ?_⟩⟩) rfl rfl
  exact place_lt e (by omega)

/-! ### Panics -/

theorem exists_get (h : off + w.toNat ≤ 8 * s.length) : ∃ v, get e s off w = some v := by
  obtain ⟨v, hv, -⟩ := foldlM_range_rule (P := fun _ _ => True) (f := getStep e s off w.toNat)
    (a := 0) (n := w.toNat) trivial fun i hi v _ => by
      unfold getStep
      rw [getBit_eq (show i + off < 8 * s.length by omega)]
      cases bit e s (i + off) with
      | true => exact ⟨_, rfl, trivial⟩
      | false => exact ⟨_, rfl, trivial⟩
  exact ⟨v, hv⟩

theorem exists_set (h : off + w.toNat ≤ 8 * s.length) (val : UInt64) :
    ∃ t, set e s off w val = some t := by
  obtain ⟨t, ht, -⟩ := foldlM_range_rule (P := fun _ t => t.length = s.length)
    (f := setStep e off w.toNat val) (a := s) (n := w.toNat) rfl fun i hi t ht => by
      have hplace := place_lt e hi
      have hin : e.place w.toNat i + off < 8 * t.length := by
        rw [ht]
        omega
      obtain ⟨u, hu, hlen, -⟩ := setBit_spec hin (val &&& mask64 i == mask64 i)
      exact ⟨u, hu, hlen.trans ht⟩
  exact ⟨t, ht⟩

theorem get_eq_none (hw : w ≠ 0) (h : 8 * s.length < off + w.toNat) : get e s off w = none := by
  have hpos : 0 < w.toNat := Nat.pos_of_ne_zero fun h => hw (UInt8.toNat_inj.mp h)
  have hlast : getBit e s (w.toNat - 1 + off) = none := getBit_eq_none (by omega)
  refine foldlM_range_eq_none (P := fun _ => True) trivial (fun _ _ _ _ _ => trivial)
    (fun v _ => ?_) (Nat.sub_lt hpos Nat.one_pos)
  unfold getStep
  rw [hlast]
  rfl

theorem set_eq_none (hw : w ≠ 0) (h : 8 * s.length < off + w.toNat) (val : UInt64) :
    set e s off w val = none := by
  have hpos : 0 < w.toNat := Nat.pos_of_ne_zero fun h => hw (UInt8.toNat_inj.mp h)
  have hlt : w.toNat - 1 < w.toNat := Nat.sub_lt hpos Nat.one_pos
  -- the iteration that writes the last bit
  refine foldlM_range_eq_none (P := fun t => t.length = s.length) rfl
    (fun t _ _ ht hstep => (length_setBit hstep).trans ht) (fun t ht => ?_) (place_lt e hlt)
  refine setBit_eq_none ?_ _
  rw [place_place e hlt, ht]
  omega

/-- **`get` and `set` panic iff the field is not empty and ends beyond the storage.** Their own
assertions, `off / 8 < len` and `(off + w) / 8 <= len`, are neither sufficient to exclude a panic,
since the quotient is rounded down, nor necessary, since an empty field is never looked at. -/
theorem panics_iff (e : Endian) (s : List UInt8) (off : Nat) (w : UInt8) :
    (get e s off w = none ↔ w ≠ 0 ∧ 8 * s.length < off + w.toNat) ∧
      ∀ val, set e s off w val = none ↔ w ≠ 0 ∧ 8 * s.length < off + w.toNat := by
  by_cases hzero : w = 0
  · subst hzero
    exact ⟨iff_of_false (Option.some_ne_none _) fun h => h.1 rfl,
      fun val => iff_of_false (Option.some_ne_none _) fun h => h.1 rfl⟩
  · by_cases h : 8 * s.length < off + w.toNat
    · exact ⟨iff_of_true (get_eq_none e hzero h) ⟨hzero, h⟩,
        fun val => iff_of_true (set_eq_none e hzero h val) ⟨hzero, h⟩⟩
    · obtain ⟨v, hv⟩ := exists_get e (Nat.not_lt.mp h)
      refine ⟨iff_of_false (by rw [hv]; exact Option.some_ne_none v) fun hout => h hout.2,
        fun val => iff_of_false ?_ fun hout => h hout.2⟩
      obtain ⟨t, ht⟩ := exists_set e (Nat.not_lt.mp h) val
      rw [ht]
      exact Option.some_ne_none t

/-! ### The native load -/

/-- The place of the field's least significant bit in the native load of `size` bits. -/
def lowest (e : Endian) (size off w : Nat) : Nat :=
  match e with
  | .big => size - (off + w)
  | .little => off

/-- Bit `k` of the load is bit `k - lowest` of the field, if it is one of the field's. -/
theorem place_lowest {k : Nat} (h : off + w.toNat ≤ 8 * s.length) (hk : k < 8 * s.length) :
    let low := lowest e (8 * s.length) off w.toNat
    let i := e.place (8 * s.length) k
    (off ≤ i ∧ i < off + w.toNat ↔ low ≤ k ∧ k < low + w.toNat) ∧
      (low ≤ k → k < low + w.toNat → e.place w.toNat (i - off) = k - low) := by
  cases e with
  | little => exact ⟨Iff.rfl, fun _ _ => rfl⟩
  | big =>
    show (off ≤ 8 * s.length - 1 - k ∧ 8 * s.length - 1 - k < off + w.toNat ↔
      8 * s.length - (off + w.toNat) ≤ k ∧ k < 8 * s.length - (off + w.toNat) + w.toNat) ∧
      (8 * s.length - (off + w.toNat) ≤ k → k < 8 * s.length - (off + w.toNat) + w.toNat →
        w.toNat - 1 - (8 * s.length - 1 - k - off) = k - (8 * s.length - (off + w.toNat)))
    omega

/-- `get` reads a range of bits of the load. -/
theorem toNat_get (hw : w.toNat ≤ 64) (h : off + w.toNat ≤ 8 * s.length) :
    (get e s off w).map UInt64.toNat =
      some (e.ofBytes s / 2 ^ lowest e (8 * s.length) off w.toNat % 2 ^ w.toNat) := by
  obtain ⟨v, hv, hbits⟩ := get_spec e hw h
  rw [hv, Option.map_some]
  refine congrArg some (Nat.eq_of_testBit_eq fun j => ?_)
  rw [hbits, Nat.testBit_mod_two_pow, Nat.testBit_div_two_pow]
  by_cases hj : j < w.toNat
  · have hlow : j + lowest e (8 * s.length) off w.toNat < 8 * s.length ∧
        e.place (8 * s.length) (j + lowest e (8 * s.length) off w.toNat) =
          e.place w.toNat j + off := by
      cases e with
      | little =>
        show j + off < 8 * s.length ∧ j + off = j + off
        omega
      | big =>
        show j + (8 * s.length - (off + w.toNat)) < 8 * s.length ∧
          8 * s.length - 1 - (j + (8 * s.length - (off + w.toNat))) = w.toNat - 1 - j + off
        omega
    rw [testBit_ofBytes e hlow.1, hlow.2]
  · rw [decide_eq_false hj, Bool.false_and, Bool.false_and]

/-- **A field of at most 64 bits is a range of bits of the storage's native load**: from bit `off`
up on a little-endian target, from the bit `off` below the top down on a big-endian one. `get` reads
that range, and `set` replaces it. -/
theorem range_of_load (hw : w.toNat ≤ 64) (h : off + w.toNat ≤ 8 * s.length) (val : UInt64) :
    (get e s off w).map UInt64.toNat =
      some (e.ofBytes s / 2 ^ lowest e (8 * s.length) off w.toNat % 2 ^ w.toNat) ∧
    let low := lowest e (8 * s.length) off w.toNat
    ∃ t, set e s off w val = some t ∧ t.length = s.length ∧
      ∀ k < 8 * s.length, (e.ofBytes t).testBit k =
        if low ≤ k ∧ k < low + w.toNat then val.toNat.testBit (k - low)
        else (e.ofBytes s).testBit k := by
  refine ⟨toNat_get e hw h, ?_⟩
  intro low
  obtain ⟨t, ht, hlen, hbits⟩ := set_spec e hw h val
  refine ⟨t, ht, hlen, fun k hk => ?_⟩
  obtain ⟨hin, hplace⟩ := place_lowest e h hk
  rw [testBit_ofBytes e (hlen ▸ hk), hlen, hbits, testBit_ofBytes e hk]
  by_cases hrange : low ≤ k ∧ k < low + w.toNat
  · rw [if_pos (hin.mpr hrange), if_pos hrange, hplace hrange.1 hrange.2]
  · rw [if_neg (fun hi => hrange (hin.mp hi)), if_neg hrange]

/-- The bits 3 to 6 of a byte, on a big-endian target. -/
theorem range_of_load_byte :
    (get .big [0b01011010] 1 4).map UInt64.toNat = some (0b01011010 / 2 ^ 3 % 2 ^ 4) :=
  (range_of_load .big (w := 4) (by decide) (s := [0b01011010]) (by decide) 0).1

/-! ### Lens laws -/

/-- A `get` reads nothing outside of its field. -/
theorem get_congr {t : List UInt8} (hlen : t.length = s.length)
    (h : ∀ k, off ≤ k → k < off + w.toNat → bit e t k = bit e s k) :
    get e t off w = get e s off w := by
  refine foldlM_range_congr fun i hi v => ?_
  have hbit : getBit e t (i + off) = getBit e s (i + off) := by
    by_cases hin : i + off < 8 * s.length
    · rw [getBit_eq hin, getBit_eq (hlen ▸ hin), h _ (by omega) (by omega)]
    · rw [getBit_eq_none (by omega), getBit_eq_none (by omega)]
  rw [getStep, getStep, hbit]

/-- What was set is got, up to the width, and every disjoint field is as it was. -/
theorem get_set (hw : w.toNat ≤ 64) (h : off + w.toNat ≤ 8 * s.length) (val : UInt64) :
    ∃ t, set e s off w val = some t ∧ t.length = s.length ∧
      (get e t off w).map UInt64.toNat = some (val.toNat % 2 ^ w.toNat) ∧
      ∀ off' w', off' + w'.toNat ≤ off ∨ off + w.toNat ≤ off' →
        get e t off' w' = get e s off' w' := by
  obtain ⟨t, ht, hlen, hbits⟩ := set_spec e hw h val
  refine ⟨t, ht, hlen, ?_, fun off' w' hdisj => get_congr e hlen fun k hlo hhi => ?_⟩
  · obtain ⟨v, hv, hread⟩ := get_spec e hw (hlen ▸ h : off + w.toNat ≤ 8 * t.length)
    rw [hv, Option.map_some]
    refine congrArg some (Nat.eq_of_testBit_eq fun j => ?_)
    rw [hread, Nat.testBit_mod_two_pow]
    by_cases hj : j < w.toNat
    · have hlt := place_lt e hj
      rw [hbits, if_pos ⟨by omega, by omega⟩, Nat.add_sub_cancel, place_place e hj]
    · rw [decide_eq_false hj, Bool.false_and, Bool.false_and]
  · rw [hbits, if_neg (by omega)]

/-- Setting a field to its own value changes nothing. -/
theorem set_get (hw : w.toNat ≤ 64) (h : off + w.toNat ≤ 8 * s.length) :
    (get e s off w).bind (set e s off w) = some s := by
  obtain ⟨v, hv, hread⟩ := get_spec e hw h
  obtain ⟨t, ht, hlen, hbits⟩ := set_spec e hw h v
  have hsame : t = s := by
    refine ext_bits e hlen fun k hk => ?_
    rw [hbits]
    split
    · next hin =>
      have hlt : k - off < w.toNat := by omega
      have hback : k - off + off = k := by omega
      rw [hread, decide_eq_true (place_lt e hlt), Bool.true_and, place_place e hlt, hback]
    · rfl
  rw [hv, Option.bind_some, ht, hsame]

/-- The later of two writes to a field wins. -/
theorem set_set (hw : w.toNat ≤ 64) (h : off + w.toNat ≤ 8 * s.length) (v val : UInt64) :
    (set e s off w v).bind (fun t => set e t off w val) = set e s off w val := by
  obtain ⟨t, ht, hlen, hbits⟩ := set_spec e hw h v
  obtain ⟨u, hu, hlen', hbits'⟩ := set_spec e hw (hlen ▸ h : off + w.toNat ≤ 8 * t.length) val
  obtain ⟨x, hx, hlen'', hbits''⟩ := set_spec e hw h val
  have hsame : u = x := by
    refine ext_bits e ((hlen'.trans hlen).trans hlen''.symm) fun k _ => ?_
    rw [hbits', hbits'', hbits]
    split
    · rfl
    · rfl
  rw [ht, Option.bind_some, hu, hx, hsame]

/-- **A field of at most 64 bits is a lens**, and it leaves every disjoint field alone. -/
theorem lens_laws (hw : w.toNat ≤ 64) (h : off + w.toNat ≤ 8 * s.length) (v val : UInt64) :
    (∃ t, set e s off w val = some t ∧ t.length = s.length ∧
      (get e t off w).map UInt64.toNat = some (val.toNat % 2 ^ w.toNat) ∧
      ∀ off' w', off' + w'.toNat ≤ off ∨ off + w.toNat ≤ off' →
        get e t off' w' = get e s off' w') ∧
    (get e s off w).bind (set e s off w) = some s ∧
    (set e s off w v).bind (fun t => set e t off w val) = set e s off w val :=
  ⟨get_set e hw h val, set_get e hw h, set_set e hw h v val⟩

/-- A field across two bytes. -/
theorem lens_laws_two_bytes :
    (get .little [0xAB, 0xCD] 3 7).bind (set .little [0xAB, 0xCD] 3 7) = some [0xAB, 0xCD] :=
  (lens_laws .little (w := 7) (by decide) (s := [0xAB, 0xCD]) (by decide) 0 0).2.1

end Field

/-! ## Structs with bit-fields -/

/-- A field: its offset and its width. -/
structure Field where
  offset : Nat
  width : UInt8

namespace Field

/-- It has no bit in common with `g`. -/
def Disjoint (f g : Field) : Prop :=
  f.offset + f.width.toNat ≤ g.offset ∨ g.offset + g.width.toNat ≤ f.offset

instance (f g : Field) : Decidable (f.Disjoint g) := inferInstanceAs (Decidable (_ ∨ _))

/-- It fits in a `u8`, and in `size` bytes. -/
def Fits (size : Nat) (f : Field) : Prop :=
  f.width.toNat ≤ 8 ∧ f.offset + f.width.toNat ≤ 8 * size

instance (size : Nat) (f : Field) : Decidable (f.Fits size) := inferInstanceAs (Decidable (_ ∧ _))

end Field

/-- The accessor of a field of type `u8`: a `get`, `as u8`. -/
def getU8 (e : Endian) (unit : List UInt8) (f : Field) : Option UInt8 :=
  (get e unit f.offset f.width).map UInt64.toUInt8

/-- The setter of a field of type `u8`: a `set` of `val as u64`. -/
def setU8 (e : Endian) (unit : List UInt8) (f : Field) (val : UInt8) : Option (List UInt8) :=
  set e unit f.offset f.width val.toUInt64

/-- A constructor: a `set` of each field in turn, from `Default::default()`. -/
def newUnit (e : Endian) (size : Nat) (vals : List (Field × UInt8)) : Option (List UInt8) :=
  vals.foldlM (fun unit p => setU8 e unit p.1 p.2) (List.replicate size 0)

section Struct

variable (e : Endian) {unit : List UInt8} {f : Field} {size : Nat}

theorem map_toUInt8 {o : Option UInt64} {n : Nat} (h : o.map UInt64.toNat = some n) :
    o.map UInt64.toUInt8 = some (UInt8.ofNat n) := by
  obtain ⟨v, rfl, rfl⟩ := Option.map_eq_some_iff.mp h
  refine congrArg some (UInt8.toNat_inj.mp ?_)
  rw [UInt64.toNat_toUInt8, UInt8.toNat_ofNat']

/-- **One setter**: its accessor returns the value, up to the width, and the accessors of disjoint
fields what they did. -/
theorem setU8_spec (hf : f.Fits unit.length) (val : UInt8) :
    ∃ t, setU8 e unit f val = some t ∧ t.length = unit.length ∧
      getU8 e t f = some (UInt8.ofNat (val.toNat % 2 ^ f.width.toNat)) ∧
      ∀ g, f.Disjoint g → getU8 e t g = getU8 e unit g := by
  obtain ⟨t, ht, hlen, hget, hframe⟩ :=
    get_set e (Nat.le_trans hf.1 (by decide)) hf.2 val.toUInt64
  refine ⟨t, ht, hlen, ?_, fun g hg => ?_⟩
  · rw [getU8, map_toUInt8 hget, UInt8.toNat_toUInt64]
  · rw [getU8, getU8, hframe _ _ (Or.symm hg)]

/-- The setters of disjoint fields, one after the other. -/
theorem foldlM_setU8 {vals : List (Field × UInt8)} (hfits : ∀ p ∈ vals, p.1.Fits unit.length)
    (hdisj : vals.Pairwise fun p q => p.1.Disjoint q.1) :
    ∃ t, vals.foldlM (fun unit p => setU8 e unit p.1 p.2) unit = some t ∧
      t.length = unit.length ∧
      (∀ p ∈ vals, getU8 e t p.1 = some (UInt8.ofNat (p.2.toNat % 2 ^ p.1.width.toNat))) ∧
      ∀ g : Field, (∀ p ∈ vals, p.1.Disjoint g) → getU8 e t g = getU8 e unit g := by
  induction vals generalizing unit with
  | nil => exact ⟨unit, rfl, rfl, fun p hp => absurd hp List.not_mem_nil, fun _ _ => rfl⟩
  | cons p vals ih =>
    rw [List.forall_mem_cons] at hfits
    rw [List.pairwise_cons] at hdisj
    obtain ⟨t, ht, hlen, hget, hframe⟩ := setU8_spec e hfits.1 p.2
    obtain ⟨u, hu, hlen', hgets, hframe'⟩ :=
      ih (fun q hq => hlen ▸ hfits.2 q hq : ∀ q ∈ vals, q.1.Fits t.length) hdisj.2
    refine ⟨u, ?_, hlen'.trans hlen, ?_, fun g hg => ?_⟩
    · rw [List.foldlM_cons, ht]
      exact hu
    · rw [List.forall_mem_cons]
      refine ⟨?_, hgets⟩
      rw [hframe' p.1 fun q hq => Or.symm (hdisj.1 q hq), hget]
    · rw [List.forall_mem_cons] at hg
      rw [hframe' g hg.2, hframe g hg.1]

/-- **A constructor of disjoint fields**: the accessors return its arguments, up to the widths. -/
theorem newUnit_spec {vals : List (Field × UInt8)} (hfits : ∀ p ∈ vals, p.1.Fits size)
    (hdisj : vals.Pairwise fun p q => p.1.Disjoint q.1) :
    ∃ t, newUnit e size vals = some t ∧ t.length = size ∧
      ∀ p ∈ vals, getU8 e t p.1 = some (UInt8.ofNat (p.2.toNat % 2 ^ p.1.width.toNat)) := by
  have hsize : (List.replicate size (0 : UInt8)).length = size := List.length_replicate
  have hfits' : ∀ p ∈ vals, p.1.Fits (List.replicate size (0 : UInt8)).length := by
    rw [hsize]
    exact hfits
  obtain ⟨t, ht, hlen, hgets, -⟩ := foldlM_setU8 e hfits' hdisj
  exact ⟨t, ht, hlen.trans hsize, hgets⟩

/-- A setter of one of disjoint fields changes what its own accessor returns, and no other. -/
theorem map_getU8_eq_set {fs : List Field} {t : List UInt8} {v : Option UInt8}
    (hdisj : fs.Pairwise Field.Disjoint) {i : Nat} (hi : i < fs.length)
    (hget : getU8 e t fs[i] = v)
    (hframe : ∀ g, fs[i].Disjoint g → getU8 e t g = getU8 e unit g) :
    fs.map (getU8 e t) = (fs.map (getU8 e unit)).set i v := by
  have hpairs := List.pairwise_iff_getElem.mp hdisj
  refine List.ext_getElem (by simp) fun j hj _ => ?_
  have hj : j < fs.length := by rwa [List.length_map] at hj
  rw [List.getElem_map, List.getElem_set]
  split
  · next hij =>
    subst hij
    exact hget
  · next hij =>
    rw [List.getElem_map]
    refine hframe _ ?_
    rcases Nat.lt_or_gt_of_ne hij with h | h
    · exact hpairs i j hi hj h
    · exact Or.symm (hpairs j i hj hi h)

theorem ofNat_mod (v m : UInt8) : UInt8.ofNat (v.toNat % m.toNat) = v % m := by
  refine UInt8.toNat_inj.mp ?_
  rw [UInt8.toNat_ofNat', UInt8.toNat_mod]
  exact Nat.mod_eq_of_lt (Nat.lt_of_le_of_lt (Nat.mod_le _ _) v.toNat_lt)

end Struct

end AyaBook.BindgenBitfieldUnit

/-! ## `iphdr` -/

namespace AyaBook.CgroupSkbEgress.Iphdr

open AyaBook.Lib
open AyaBook.BindgenBitfieldUnit

/-- `iphdr::ihl`, of the header's `_bitfield_1`. -/
def ihl (e : Endian) (bitfield1 : List UInt8) : Option UInt8 := getU8 e bitfield1 ⟨0, 4⟩

/-- `iphdr::set_ihl`. -/
def setIhl (e : Endian) (bitfield1 : List UInt8) (val : UInt8) : Option (List UInt8) :=
  setU8 e bitfield1 ⟨0, 4⟩ val

/-- `iphdr::version`. -/
def version (e : Endian) (bitfield1 : List UInt8) : Option UInt8 := getU8 e bitfield1 ⟨4, 4⟩

/-- `iphdr::set_version`. -/
def setVersion (e : Endian) (bitfield1 : List UInt8) (val : UInt8) : Option (List UInt8) :=
  setU8 e bitfield1 ⟨4, 4⟩ val

/-- `iphdr::new_bitfield_1`. -/
def newBitfield1 (e : Endian) (ihl version : UInt8) : Option (List UInt8) :=
  newUnit e 1 [(⟨0, 4⟩, ihl), (⟨4, 4⟩, version)]

variable (e : Endian)

/-- **Which half of the header's first byte is which**: the length is the low nibble on a
little-endian target. The bindings were generated on one, and give a big-endian target the two
halves in each other's place. -/
theorem nibbles_eq (b : UInt8) :
    ihl e [b] = some (if e = .little then b % 16 else b / 16) ∧
      version e [b] = some (if e = .little then b / 16 else b % 16) := by
  have hb := b.toNat_lt
  have hload : e.ofBytes [b] = b.toNat := by cases e <;> simp [Endian.ofBytes, ofLe]
  -- the two ranges of bits, as `u8`s
  have hmod : UInt8.ofNat (b.toNat / 2 ^ 0 % 2 ^ 4) = b % 16 := by
    rw [pow_zero, Nat.div_one]
    exact ofNat_mod b 16
  have hdiv : UInt8.ofNat (b.toNat / 2 ^ 4 % 2 ^ 4) = b / 16 := by
    refine UInt8.toNat_inj.mp ?_
    rw [UInt8.toNat_ofNat', UInt8.toNat_div]
    show b.toNat / 16 % 16 % 256 = b.toNat / 16
    omega
  have hihl := toNat_get e (by decide) (show 0 + (4 : UInt8).toNat ≤ 8 * [b].length from by simp)
  have hversion :=
    toNat_get e (by decide) (show 4 + (4 : UInt8).toNat ≤ 8 * [b].length from by simp)
  rw [hload] at hihl hversion
  unfold ihl version getU8
  rw [map_toUInt8 hihl, map_toUInt8 hversion]
  cases e with
  | little => exact ⟨congrArg some hmod, congrArg some hdiv⟩
  | big => exact ⟨congrArg some hdiv, congrArg some hmod⟩

/-- A byte is its two nibbles. -/
theorem eq_of_nibbles {b c : UInt8} (hihl : ihl e [b] = ihl e [c])
    (hversion : version e [b] = version e [c]) : b = c := by
  rw [(nibbles_eq e b).1, (nibbles_eq e c).1] at hihl
  rw [(nibbles_eq e b).2, (nibbles_eq e c).2] at hversion
  have hsame : b.toNat % 16 = c.toNat % 16 ∧ b.toNat / 16 = c.toNat / 16 := by
    cases e with
    | little => exact ⟨congrArg UInt8.toNat (Option.some.inj hihl),
        congrArg UInt8.toNat (Option.some.inj hversion)⟩
    | big => exact ⟨congrArg UInt8.toNat (Option.some.inj hversion),
        congrArg UInt8.toNat (Option.some.inj hihl)⟩
  exact UInt8.toNat_inj.mp (by omega)

theorem newBitfield1_nibbles (i v : UInt8) :
    ∃ b, newBitfield1 e i v = some [b] ∧ ihl e [b] = some (i % 16) ∧
      version e [b] = some (v % 16) := by
  have hfits : ∀ p ∈ [((⟨0, 4⟩ : Field), i), (⟨4, 4⟩, v)], p.1.Fits 1 := by simp [Field.Fits]
  obtain ⟨t, ht, hlen, hgets⟩ := newUnit_spec e hfits (by simp [Field.Disjoint])
  obtain ⟨b, rfl⟩ := List.length_eq_one_iff.mp hlen
  rw [List.forall_mem_cons, List.forall_mem_cons] at hgets
  exact ⟨b, ht, hgets.1.trans (congrArg some (ofNat_mod i 16)),
    hgets.2.1.trans (congrArg some (ofNat_mod v 16))⟩

/-- **The byte is the pair of its fields**: `new_bitfield_1` builds a byte whose accessors return
its arguments, up to four bits, and builds every byte from what the accessors return for it. -/
theorem newBitfield1_bijective :
    (∀ i v, ∃ b, newBitfield1 e i v = some [b] ∧ ihl e [b] = some (i % 16) ∧
      version e [b] = some (v % 16)) ∧
    ∀ b, ∃ i v, ihl e [b] = some i ∧ version e [b] = some v ∧ newBitfield1 e i v = some [b] := by
  refine ⟨newBitfield1_nibbles e, fun b => ?_⟩
  obtain ⟨hihl, hversion⟩ := nibbles_eq e b
  obtain ⟨c, hnew, hihl', hversion'⟩ := newBitfield1_nibbles e
    (if e = .little then b % 16 else b / 16) (if e = .little then b / 16 else b % 16)
  -- a nibble fits in four bits
  have hmod : b % 16 % 16 = b % 16 := by
    refine UInt8.toNat_inj.mp ?_
    rw [UInt8.toNat_mod, UInt8.toNat_mod]
    exact Nat.mod_mod _ _
  have hdiv : b / 16 % 16 = b / 16 := by
    refine UInt8.toNat_inj.mp ?_
    rw [UInt8.toNat_mod, UInt8.toNat_div]
    have hb := b.toNat_lt
    exact Nat.mod_eq_of_lt (show b.toNat / 16 < 16 by omega)
  have hsame : c = b := by
    refine eq_of_nibbles e ?_ ?_
    · rw [hihl', hihl, apply_ite (· % 16), hmod, hdiv]
    · rw [hversion', hversion, apply_ite (· % 16), hmod, hdiv]
  exact ⟨_, _, hihl, hversion, hsame ▸ hnew⟩

/-- **The setters**: each sets its own half, up to four bits, and leaves the other. -/
theorem setters_eq (b val : UInt8) :
    (∃ c, setIhl e [b] val = some [c] ∧ ihl e [c] = some (val % 16) ∧
      version e [c] = version e [b]) ∧
    ∃ c, setVersion e [b] val = some [c] ∧ version e [c] = some (val % 16) ∧
      ihl e [c] = ihl e [b] := by
  constructor
  · obtain ⟨t, ht, hlen, hget, hframe⟩ :=
      setU8_spec e (show Field.Fits [b].length ⟨0, 4⟩ from by simp [Field.Fits]) val
    obtain ⟨c, rfl⟩ := List.length_eq_one_iff.mp hlen
    exact ⟨c, ht, hget.trans (congrArg some (ofNat_mod val 16)),
      hframe ⟨4, 4⟩ (Or.inl (by decide))⟩
  · obtain ⟨t, ht, hlen, hget, hframe⟩ :=
      setU8_spec e (show Field.Fits [b].length ⟨4, 4⟩ from by simp [Field.Fits]) val
    obtain ⟨c, rfl⟩ := List.length_eq_one_iff.mp hlen
    exact ⟨c, ht, hget.trans (congrArg some (ofNat_mod val 16)),
      hframe ⟨0, 4⟩ (Or.inr (by decide))⟩

end AyaBook.CgroupSkbEgress.Iphdr

/-! ## `sock_common` -/

namespace AyaBook.Kprobetcp.SockCommon

open AyaBook.Lib
open AyaBook.BindgenBitfieldUnit

variable (e : Endian) (unit : List UInt8)

/-- `sock_common::skc_reuse`. -/
def skcReuse : Option UInt8 := getU8 e unit ⟨0, 4⟩

/-- `sock_common::set_skc_reuse`. -/
def setSkcReuse (val : UInt8) : Option (List UInt8) := setU8 e unit ⟨0, 4⟩ val

/-- `sock_common::skc_reuseport`. -/
def skcReuseport : Option UInt8 := getU8 e unit ⟨4, 1⟩

/-- `sock_common::set_skc_reuseport`. -/
def setSkcReuseport (val : UInt8) : Option (List UInt8) := setU8 e unit ⟨4, 1⟩ val

/-- `sock_common::skc_ipv6only`. -/
def skcIpv6only : Option UInt8 := getU8 e unit ⟨5, 1⟩

/-- `sock_common::set_skc_ipv6only`. -/
def setSkcIpv6only (val : UInt8) : Option (List UInt8) := setU8 e unit ⟨5, 1⟩ val

/-- `sock_common::skc_net_refcnt`. -/
def skcNetRefcnt : Option UInt8 := getU8 e unit ⟨6, 1⟩

/-- `sock_common::set_skc_net_refcnt`. -/
def setSkcNetRefcnt (val : UInt8) : Option (List UInt8) := setU8 e unit ⟨6, 1⟩ val

/-- What the four accessors return. -/
def accessors : List (Option UInt8) :=
  [skcReuse e unit, skcReuseport e unit, skcIpv6only e unit, skcNetRefcnt e unit]

/-- `sock_common::new_bitfield_1`. -/
def newBitfield1 (reuse reuseport ipv6only netRefcnt : UInt8) : Option (List UInt8) :=
  newUnit e 1
    [(⟨0, 4⟩, reuse), (⟨4, 1⟩, reuseport), (⟨5, 1⟩, ipv6only), (⟨6, 1⟩, netRefcnt)]

/-- The fields of `_bitfield_1`. The last bit of the byte is in none of them. -/
def bitfields : List Field := [⟨0, 4⟩, ⟨4, 1⟩, ⟨5, 1⟩, ⟨6, 1⟩]

theorem fits_bitfields : ∀ f ∈ bitfields, f.Fits 1 := by decide

theorem disjoint_bitfields : bitfields.Pairwise Field.Disjoint := by decide

/-- One setter, of the field `i`. -/
theorem accessors_setU8 (b val m : UInt8) {i : Nat} (hi : i < bitfields.length)
    (hm : m.toNat = 2 ^ bitfields[i].width.toNat) :
    ∃ c, setU8 e [b] bitfields[i] val = some [c] ∧
      accessors e [c] = (accessors e [b]).set i (some (val % m)) := by
  have hfits : bitfields[i].Fits [b].length := fits_bitfields _ (List.getElem_mem hi)
  obtain ⟨t, ht, hlen, hget, hframe⟩ := setU8_spec e hfits val
  obtain ⟨c, rfl⟩ := List.length_eq_one_iff.mp hlen
  refine ⟨c, ht, map_getU8_eq_set e disjoint_bitfields hi ?_ hframe⟩
  rw [hget, ← hm, ofNat_mod]

/-- **`new_bitfield_1`, the accessors and the setters**: the accessors return the constructor's
arguments, up to the fields' widths; and a setter changes what its own accessor returns, to its
argument up to the width, and no other. -/
theorem newBitfield1_fields (reuse reuseport ipv6only netRefcnt : UInt8) :
    (∃ b, newBitfield1 e reuse reuseport ipv6only netRefcnt = some [b] ∧
      accessors e [b] = [some (reuse % 16), some (reuseport % 2), some (ipv6only % 2),
        some (netRefcnt % 2)]) ∧
    ∀ b val,
      (∃ c, setSkcReuse e [b] val = some [c] ∧
        accessors e [c] = (accessors e [b]).set 0 (some (val % 16))) ∧
      (∃ c, setSkcReuseport e [b] val = some [c] ∧
        accessors e [c] = (accessors e [b]).set 1 (some (val % 2))) ∧
      (∃ c, setSkcIpv6only e [b] val = some [c] ∧
        accessors e [c] = (accessors e [b]).set 2 (some (val % 2))) ∧
      ∃ c, setSkcNetRefcnt e [b] val = some [c] ∧
        accessors e [c] = (accessors e [b]).set 3 (some (val % 2)) := by
  constructor
  · have hfits : ∀ p ∈ [((⟨0, 4⟩ : Field), reuse), (⟨4, 1⟩, reuseport), (⟨5, 1⟩, ipv6only),
        (⟨6, 1⟩, netRefcnt)], p.1.Fits 1 :=
      fun p hp => fits_bitfields p.1 (List.mem_map_of_mem (f := Prod.fst) hp)
    obtain ⟨t, ht, hlen, hgets⟩ := newUnit_spec e hfits (List.pairwise_map.mp disjoint_bitfields)
    obtain ⟨b, rfl⟩ := List.length_eq_one_iff.mp hlen
    simp only [List.forall_mem_cons] at hgets
    refine ⟨b, ht, ?_⟩
    rw [accessors, skcReuse, skcReuseport, skcIpv6only, skcNetRefcnt, hgets.1, hgets.2.1,
      hgets.2.2.1, hgets.2.2.2.1, ← ofNat_mod, ← ofNat_mod, ← ofNat_mod, ← ofNat_mod]
    rfl
  · intro b val
    exact ⟨accessors_setU8 e b val 16 (i := 0) (by decide) rfl,
      accessors_setU8 e b val 2 (i := 1) (by decide) rfl,
      accessors_setU8 e b val 2 (i := 2) (by decide) rfl,
      accessors_setU8 e b val 2 (i := 3) (by decide) rfl⟩

end AyaBook.Kprobetcp.SockCommon
