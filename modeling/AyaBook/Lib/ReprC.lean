import AyaBook.Rust

/-!
# `repr(C)`: sizes, and a struct's raw bytes

`structOf` and `unionOf` give the layout of a struct and of a union from the layouts of their
fields, so that nested types are laid out from the inside. `raw` is a struct as it lies in memory:
each field's bytes where `offsetOf` says, and arbitrary bytes in the padding.

Results:
* `offsetOf_add_size_le`: a field lies inside its struct.
* `bytes_raw`: **what a field holds is read back at its offset**, whatever the other fields and the
  padding hold.
-/

namespace AyaBook.Lib

/-! ## Layouts -/

/-- `[T; n]`. -/
def arrayOf (l : Layout) (n : Nat) : Layout := ⟨l.size * n, l.align⟩

/-- Where fields with the layouts `ls`, placed from `off` on, end. -/
def endOf : Nat → List Layout → Nat
  | off, [] => off
  | off, l :: ls => endOf (alignUp off l.align + l.size) ls

/-- The strictest alignment. -/
def maxAlign (ls : List Layout) : Nat := ls.foldr (fun l a => max l.align a) 1

/-- A `repr(C)` struct with these fields. -/
def structOf (ls : List Layout) : Layout := ⟨alignUp (endOf 0 ls) (maxAlign ls), maxAlign ls⟩

/-- A `repr(C)` union with these fields. -/
def unionOf (ls : List Layout) : Layout :=
  ⟨alignUp (ls.foldr (fun l s => max l.size s) 0) (maxAlign ls), maxAlign ls⟩

theorem le_alignUp {off align : Nat} (h : 0 < align) : off ≤ alignUp off align := by
  unfold alignUp
  have hdiv := Nat.div_add_mod (off + align - 1) align
  have hmod := Nat.mod_lt (off + align - 1) h
  rw [Nat.mul_comm] at hdiv
  omega

theorem le_endOf {ls : List Layout} (h : ∀ l ∈ ls, 0 < l.align) (off : Nat) :
    off ≤ endOf off ls := by
  induction ls generalizing off with
  | nil => exact le_rfl
  | cons l ls ih =>
    have hstart : off ≤ alignUp off l.align := le_alignUp (h l List.mem_cons_self)
    have hrest := ih (fun l' hl' => h l' (List.mem_cons_of_mem l hl'))
      (alignUp off l.align + l.size)
    rw [endOf]
    omega

theorem maxAlign_pos (ls : List Layout) : 0 < maxAlign ls := by
  induction ls with
  | nil => exact Nat.one_pos
  | cons l ls ih => exact lt_of_lt_of_le ih (le_max_right l.align (maxAlign ls))

/-! ## Raw bytes -/

variable {F : Type} {layout : F → Layout} {fields : List F}

/-- The bytes from `off` to `stop`, out of any. -/
def padding (pad : Nat → UInt8) (off stop : Nat) : List UInt8 :=
  (List.range' off (stop - off)).map pad

/-- The fields from `off` on, each after its padding. -/
def rawFrom (layout : F → Layout) (pad : Nat → UInt8) (v : F → List UInt8) :
    Nat → List F → List UInt8
  | _, [] => []
  | off, g :: gs =>
    let start := alignUp off (layout g).align
    padding pad off start ++ v g ++ rawFrom layout pad v (start + (layout g).size) gs

/-- **A struct in memory**, with the bytes `v g` in the field `g` and `pad` elsewhere. -/
def raw (layout : F → Layout) (pad : Nat → UInt8) (v : F → List UInt8) (fields : List F) :
    List UInt8 :=
  rawFrom layout pad v 0 fields ++
    padding pad (endOf 0 (fields.map layout)) (structOf (fields.map layout)).size

@[simp] theorem length_padding (pad : Nat → UInt8) (off stop : Nat) :
    (padding pad off stop).length = stop - off := by
  rw [padding, List.length_map, List.length_range']

variable {pad : Nat → UInt8} {v : F → List UInt8}

theorem length_rawFrom (hpos : ∀ g, 0 < (layout g).align)
    (hv : ∀ g, (v g).length = (layout g).size) (off : Nat) :
    off + (rawFrom layout pad v off fields).length = endOf off (fields.map layout) := by
  induction fields generalizing off with
  | nil => rfl
  | cons g gs ih =>
    have hstart : off ≤ alignUp off (layout g).align := le_alignUp (hpos g)
    have hrest := ih (alignUp off (layout g).align + (layout g).size)
    rw [rawFrom, List.map_cons, endOf, ← hrest, List.length_append, List.length_append,
      length_padding, hv]
    omega

/-- A struct takes its size. -/
theorem length_raw (hpos : ∀ g, 0 < (layout g).align)
    (hv : ∀ g, (v g).length = (layout g).size) :
    (raw layout pad v fields).length = (structOf (fields.map layout)).size := by
  have hfields : 0 + (rawFrom layout pad v 0 fields).length = endOf 0 (fields.map layout) :=
    length_rawFrom hpos hv 0
  have hend : endOf 0 (fields.map layout) ≤ (structOf (fields.map layout)).size :=
    le_alignUp (maxAlign_pos _)
  rw [raw, List.length_append, length_padding]
  omega

/-! ## Fields -/

variable [DecidableEq F] {f : F}

theorem le_offsetOf (hpos : ∀ g, 0 < (layout g).align) (off : Nat) :
    off ≤ offsetOf layout off fields f := by
  induction fields generalizing off with
  | nil => exact le_rfl
  | cons g gs ih =>
    have hstart : off ≤ alignUp off (layout g).align := le_alignUp (hpos g)
    have hrest := ih (alignUp off (layout g).align + (layout g).size)
    rw [offsetOf]
    split
    · exact hstart
    · omega

/-- A field ends where the fields end, or before. -/
theorem offsetOf_add_size_le_endOf (hpos : ∀ g, 0 < (layout g).align) (hf : f ∈ fields)
    (off : Nat) :
    offsetOf layout off fields f + (layout f).size ≤ endOf off (fields.map layout) := by
  induction fields generalizing off with
  | nil => exact absurd hf List.not_mem_nil
  | cons g gs ih =>
    rw [offsetOf, List.map_cons, endOf]
    split
    · rename_i hg
      rw [hg]
      refine le_endOf (fun l hl => ?_) _
      obtain ⟨g', -, rfl⟩ := List.mem_map.mp hl
      exact hpos g'
    · rename_i hg
      exact ih ((List.mem_cons.mp hf).resolve_left (Ne.symm hg)) _

/-- **A field lies inside its struct.** -/
theorem offsetOf_add_size_le (hpos : ∀ g, 0 < (layout g).align) (hf : f ∈ fields) :
    offsetOf layout 0 fields f + (layout f).size ≤ (structOf (fields.map layout)).size :=
  (offsetOf_add_size_le_endOf hpos hf 0).trans (le_alignUp (maxAlign_pos _))

/-- A field that starts at its offset is read back there, from `off` on. -/
theorem bytes_rawFrom (hpos : ∀ g, 0 < (layout g).align)
    (hv : ∀ g, (v g).length = (layout g).size) (hf : f ∈ fields) (off : Nat) (rest : List UInt8) :
    (((rawFrom layout pad v off fields ++ rest).drop (offsetOf layout off fields f - off)).take
      (layout f).size) = v f := by
  induction fields generalizing off with
  | nil => exact absurd hf List.not_mem_nil
  | cons g gs ih =>
    have hstart : off ≤ alignUp off (layout g).align := le_alignUp (hpos g)
    rw [offsetOf, rawFrom]
    split
    · rename_i hg
      subst hg
      rw [List.append_assoc, List.append_assoc, List.drop_left' (length_padding _ _ _),
        List.take_left' (hv g)]
    · -- the field is further on: skip the padding and the bytes of `g`
      rename_i hg
      have hmem : f ∈ gs := (List.mem_cons.mp hf).resolve_left (Ne.symm hg)
      have hle : alignUp off (layout g).align + (layout g).size ≤ offsetOf layout
          (alignUp off (layout g).align + (layout g).size) gs f := le_offsetOf hpos _
      have hlen : (padding pad off (alignUp off (layout g).align) ++ v g).length =
          alignUp off (layout g).align + (layout g).size - off := by
        rw [List.length_append, length_padding, hv]
        omega
      rw [List.append_assoc _ _ rest, ← ih hmem, ← Nat.sub_add_sub_cancel hle (by omega),
        Nat.add_comm, ← List.drop_drop, List.drop_left' hlen]

/-- **What a field holds is read back at its offset.** -/
theorem bytes_raw (hpos : ∀ g, 0 < (layout g).align) (hv : ∀ g, (v g).length = (layout g).size)
    (hf : f ∈ fields) :
    ((raw layout pad v fields).drop (offsetOf layout 0 fields f)).take (layout f).size = v f :=
  bytes_rawFrom hpos hv hf 0 _

end AyaBook.Lib
