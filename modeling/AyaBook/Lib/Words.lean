import Mathlib.Data.List.DropRight

/-!
# Words

The words of a list are its maximal runs of elements that are no separators (`p`). Splitting at a
single separator instead gives the pieces between its occurrences, empty ones included.

Results:
* `words_strip`: separators at the ends belong to no word.
* `nil_mem_splitOn_iff`: when splitting gives an empty piece.
* `splitOn_eq_words_iff`: **splitting at one separator gives the words** iff there is no other
  separator and no empty piece.
-/

namespace AyaBook.Lib

variable {α : Type} {p : α → Bool}

/-- The words of `s`: the pieces between separators that are not empty. -/
def words (p : α → Bool) (s : List α) : List (List α) :=
  (s.splitOnP p).filter fun w => !w.isEmpty

/-! ## Pieces -/

/-- **The pieces hold the elements that are no separators**, and no others. -/
theorem exists_mem_splitOnP_iff {s : List α} {c : α} :
    (∃ w ∈ s.splitOnP p, c ∈ w) ↔ c ∈ s ∧ p c = false := by
  induction s with
  | nil =>
    rw [List.splitOnP_nil]
    simp only [List.mem_singleton, exists_eq_left, List.not_mem_nil, false_and]
  | cons a s ih =>
    rw [List.splitOnP_cons_eq_if_modifyHead]
    by_cases ha : p a = true
    · rw [if_pos ha, List.exists_mem_cons_iff, ih]
      constructor
      · rintro (hc | ⟨hc, hp⟩)
        · exact absurd hc List.not_mem_nil
        · exact ⟨List.mem_cons_of_mem a hc, hp⟩
      · rintro ⟨hc, hp⟩
        rcases List.mem_cons.mp hc with rfl | hc
        · exact absurd ha (by rw [hp]; exact Bool.false_ne_true)
        · exact Or.inr ⟨hc, hp⟩
    · -- the element joins the first piece of the rest
      obtain ⟨w, ws, hws⟩ := List.exists_cons_of_ne_nil (List.splitOnP_ne_nil p s)
      rw [hws, List.exists_mem_cons_iff] at ih
      rw [if_neg ha, hws, List.modifyHead_cons, List.exists_mem_cons_iff, List.mem_cons, or_assoc,
        ih, List.mem_cons]
      rw [Bool.not_eq_true] at ha
      constructor
      · rintro (rfl | ⟨hc, hp⟩)
        · exact ⟨Or.inl rfl, ha⟩
        · exact ⟨Or.inr hc, hp⟩
      · rintro ⟨rfl | hc, hp⟩
        · exact Or.inl rfl
        · exact Or.inr ⟨hc, hp⟩

/-- Pieces depend only on which elements of the list are separators. -/
theorem splitOnP_congr {q : α → Bool} {s : List α} (h : ∀ c ∈ s, p c = q c) :
    s.splitOnP p = s.splitOnP q := by
  induction s with
  | nil => rfl
  | cons a s ih =>
    rw [List.splitOnP_cons_eq_if_modifyHead, List.splitOnP_cons_eq_if_modifyHead,
      h a List.mem_cons_self, ih fun c hc => h c (List.mem_cons_of_mem a hc)]

theorem mem_words {s w : List α} : w ∈ words p s ↔ w ∈ s.splitOnP p ∧ w ≠ [] := by
  rw [words, List.mem_filter, Bool.not_eq_true', List.isEmpty_eq_false_iff]

/-- **A separator ends a word.** -/
theorem words_append_cons {c : α} (hc : p c = true) (s t : List α) :
    words p (s ++ c :: t) = words p s ++ words p t := by
  unfold words
  rw [List.splitOnP_append_cons s t hc, List.filter_append]

@[simp] theorem words_nil : words p [] = [] := rfl

/-! ## Separators at the ends -/

theorem getLast?_cons_eq_some {a b : α} {s : List α} :
    (a :: s).getLast? = some b ↔ (s = [] ∧ a = b) ∨ s.getLast? = some b := by
  cases s with
  | nil => simp
  | cons c s => simp [List.getLast?_cons]

theorem words_dropWhile (s : List α) : words p (s.dropWhile p) = words p s := by
  induction s with
  | nil => rfl
  | cons a s ih =>
    by_cases ha : p a = true
    · rw [List.dropWhile_cons_of_pos ha, ih]
      exact (words_append_cons ha [] s).symm
    · rw [List.dropWhile_cons_of_neg ha]

theorem words_rdropWhile (s : List α) : words p (s.rdropWhile p) = words p s := by
  induction s using List.reverseRecOn with
  | nil => rfl
  | append_singleton s a ih =>
    by_cases ha : p a = true
    · rw [List.rdropWhile_concat_pos p s a ha, ih, words_append_cons ha, words_nil,
        List.append_nil]
    · rw [List.rdropWhile_concat_neg p s a ha]

/-- **Separators at the ends belong to no word.** -/
theorem words_strip (s : List α) : words p ((s.dropWhile p).rdropWhile p) = words p s := by
  rw [words_rdropWhile, words_dropWhile]

/-- What is left does not begin with a separator … -/
theorem head?_strip_ne {s : List α} {c : α} (hc : p c = true) :
    ((s.dropWhile p).rdropWhile p).head? ≠ some c := by
  intro h
  have hprefix : [c] <+: s.dropWhile p :=
    (List.singleton_prefix_iff_head?_eq_some.mpr h).trans (List.rdropWhile_prefix p _)
  have hnot := List.head?_dropWhile_not p s
  rw [List.singleton_prefix_iff_head?_eq_some.mp hprefix] at hnot
  exact absurd (hc.symm.trans hnot) (Bool.false_ne_true ·.symm)

/-- … and does not end with one. -/
theorem getLast?_strip_ne {s : List α} {c : α} (hc : p c = true) :
    ((s.dropWhile p).rdropWhile p).getLast? ≠ some c := by
  intro h
  have hne : (s.dropWhile p).rdropWhile p ≠ [] := by
    intro hnil
    rw [hnil] at h
    exact nomatch h
  rw [List.getLast?_eq_some_getLast hne] at h
  have hlast := List.rdropWhile_last_not p (s.dropWhile p) hne
  rw [Option.some.inj h] at hlast
  exact hlast hc

/-! ## One separator -/

section One

variable [BEq α] [LawfulBEq α] {sep : α}

/-- The first piece is empty when the list is, or when it begins with the separator. -/
theorem nil_mem_splitOn_iff_tail {s : List α} : [] ∈ s.splitOn sep ↔
    s = [] ∨ s.head? = some sep ∨ [] ∈ (s.splitOn sep).tail := by
  cases s with
  | nil => exact iff_of_true List.mem_cons_self (Or.inl rfl)
  | cons a s =>
    obtain ⟨w, ws, hws⟩ := List.exists_cons_of_ne_nil (List.splitOn_ne_nil sep s)
    rw [List.splitOn_cons_eq_if_modifyHead, hws, List.head?_cons, Option.some.injEq]
    by_cases ha : a = sep
    · rw [if_pos (beq_iff_eq.mpr ha)]
      exact iff_of_true List.mem_cons_self (Or.inr (Or.inl ha))
    · rw [if_neg fun h => ha (beq_iff_eq.mp h), List.modifyHead_cons, List.mem_cons, List.tail_cons]
      simp only [ha, List.nil_eq, List.cons_ne_nil, false_or]

/-- A later piece is empty when the list ends with the separator, or has two adjacent ones. -/
theorem nil_mem_tail_splitOn_iff {s : List α} :
    [] ∈ (s.splitOn sep).tail ↔ s.getLast? = some sep ∨ [sep, sep] <:+: s := by
  induction s with
  | nil => simp
  | cons a s ih =>
    rw [List.splitOn_cons_eq_if_modifyHead, List.infix_cons_iff, List.cons_prefix_cons,
      List.singleton_prefix_iff_head?_eq_some, getLast?_cons_eq_some]
    by_cases ha : a = sep
    · -- the pieces of `s`, all of them later ones
      rw [if_pos (beq_iff_eq.mpr ha), List.tail_cons, nil_mem_splitOn_iff_tail, ih]
      simp only [ha, and_true, true_and]
      rw [or_assoc]
      exact or_congr Iff.rfl or_left_comm
    · rw [if_neg fun h => ha (beq_iff_eq.mp h), List.tail_modifyHead, ih]
      simp only [ha, Ne.symm ha, and_false, false_and, false_or]

/-- The last piece is empty only when the list is, or when it ends with the separator. -/
theorem getLast?_splitOn_eq_nil {s : List α} (h : (s.splitOn sep).getLast? = some []) :
    s = [] ∨ s.getLast? = some sep := by
  induction s with
  | nil => exact Or.inl rfl
  | cons a s ih =>
    obtain ⟨w, ws, hws⟩ := List.exists_cons_of_ne_nil (List.splitOn_ne_nil sep s)
    rw [List.splitOn_cons_eq_if_modifyHead, hws] at h
    rw [hws] at ih
    rw [getLast?_cons_eq_some]
    by_cases ha : a = sep
    · rw [if_pos (beq_iff_eq.mpr ha), List.getLast?_cons_cons] at h
      rcases ih h with hnil | hlast
      · exact Or.inr (Or.inl ⟨hnil, ha⟩)
      · exact Or.inr (Or.inr hlast)
    · rw [if_neg fun h => ha (beq_iff_eq.mp h), List.modifyHead_cons] at h
      cases ws with
      | nil => exact absurd (Option.some.inj h) (List.cons_ne_nil a w)
      | cons v vs =>
        rw [List.getLast?_cons_cons] at h ih
        rcases ih h with rfl | hlast
        · exact absurd (List.cons.inj hws).2 (List.cons_ne_nil v vs).symm
        · exact Or.inr (Or.inr hlast)

/-- **When splitting gives an empty piece**: the list is empty, begins or ends with the separator,
or has two adjacent ones. -/
theorem nil_mem_splitOn_iff {s : List α} : [] ∈ s.splitOn sep ↔
    s = [] ∨ s.head? = some sep ∨ s.getLast? = some sep ∨ [sep, sep] <:+: s := by
  rw [nil_mem_splitOn_iff_tail, nil_mem_tail_splitOn_iff]

/-- **Splitting at one separator gives the words** iff there is no other separator and no empty
piece. -/
theorem splitOn_eq_words_iff (hsep : p sep = true) {s : List α} :
    s.splitOn sep = words p s ↔ (∀ c ∈ s, p c = true → c = sep) ∧ [] ∉ s.splitOn sep := by
  constructor
  · intro h
    constructor
    · intro c hc hp
      by_contra hne
      obtain ⟨w, hw, hcw⟩ : ∃ w ∈ s.splitOn sep, c ∈ w :=
        exists_mem_splitOnP_iff.mpr ⟨hc, beq_eq_false_iff_ne.mpr hne⟩
      rw [h, mem_words] at hw
      have hfalse := (exists_mem_splitOnP_iff.mp ⟨w, hw.1, hcw⟩).2
      rw [hp] at hfalse
      exact absurd hfalse.symm Bool.false_ne_true
    · rw [h, mem_words]
      exact fun hnil => hnil.2 rfl
  · rintro ⟨honly, hnil⟩
    have hsame : s.splitOn sep = s.splitOnP p := by
      refine splitOnP_congr fun c hc => ?_
      rw [Bool.eq_iff_iff, beq_iff_eq]
      exact ⟨fun h => h ▸ hsep, honly c hc⟩
    rw [words, ← hsame]
    refine (List.filter_eq_self.mpr fun w hw => ?_).symm
    rw [Bool.not_eq_true', List.isEmpty_eq_false_iff]
    exact fun h => hnil (h ▸ hw)

end One

end AyaBook.Lib
