import Mathlib.Data.List.Induction

/-!
# Machines and their runs

A machine takes one action at a time and answers each with an output; an action that cannot
happen in a state leaves it as it is. A run is a list of actions; `moves s as` lists its steps
from the state `s`, each with the state before and after it, and `last s as` is where it ends.

Results, each an induction over runs done once:
* `last_of_invariant`, `moves_of_invariant`: what every step preserves holds along the run.
* `forall_post_iff`: what a step preserves exactly under a condition.
* `history_induction`: a relation between the run so far and the state it has reached.
* `forall_prefix_iff`: such a relation that a step preserves exactly under a condition.
* `forall_moves_congr`: a property of single steps, exchanged for an equivalent one.
-/

namespace AyaBook.Lib

/-- A machine with states `σ`, actions `α` and outputs `ω`. -/
structure Machine (σ α ω : Type) where
  step : σ → α → σ × ω

/-- One step of a run. -/
structure Move (σ α ω : Type) where
  pre : σ
  act : α
  out : ω
  post : σ

namespace Machine

variable {σ α ω : Type} (M : Machine σ α ω)

/-- The state after `a`. -/
def next (s : σ) (a : α) : σ := (M.step s a).1

/-- The step `a` takes from `s`. -/
def move (s : σ) (a : α) : Move σ α ω := ⟨s, a, (M.step s a).2, M.next s a⟩

/-- The state a run from `s` ends in. -/
def last (s : σ) (as : List α) : σ := as.foldl M.next s

/-- The steps of a run from `s`. -/
def moves : σ → List α → List (Move σ α ω)
  | _, [] => []
  | s, a :: as => M.move s a :: moves (M.next s a) as

variable {M} {s : σ}

theorem last_append (as bs : List α) : M.last s (as ++ bs) = M.last (M.last s as) bs :=
  List.foldl_append

theorem last_concat (as : List α) (a : α) : M.last s (as ++ [a]) = M.next (M.last s as) a :=
  last_append as [a]

theorem moves_append (as bs : List α) :
    M.moves s (as ++ bs) = M.moves s as ++ M.moves (M.last s as) bs := by
  induction as generalizing s with
  | nil => rfl
  | cons a as ih =>
    rw [List.cons_append, moves, moves, ih, List.cons_append]
    rfl

theorem moves_concat (as : List α) (a : α) :
    M.moves s (as ++ [a]) = M.moves s as ++ [M.move (M.last s as) a] :=
  moves_append as [a]

/-- The steps of a run are the machine's moves from its own prefixes. -/
theorem mem_moves {as : List α} {m : Move σ α ω} :
    m ∈ M.moves s as ↔ ∃ bs a cs, as = bs ++ a :: cs ∧ m = M.move (M.last s bs) a := by
  constructor
  · induction as generalizing s with
    | nil => intro h; exact absurd h List.not_mem_nil
    | cons a as ih =>
      intro h
      rcases List.mem_cons.mp h with rfl | h
      · exact ⟨[], a, as, rfl, rfl⟩
      · obtain ⟨bs, b, cs, rfl, rfl⟩ := ih h
        exact ⟨a :: bs, b, cs, rfl, rfl⟩
  · rintro ⟨bs, a, cs, rfl, rfl⟩
    rw [moves_append]
    exact List.mem_append_right _ List.mem_cons_self

theorem move_mem_moves (bs : List α) (a : α) (cs : List α) :
    M.move (M.last s bs) a ∈ M.moves s (bs ++ a :: cs) :=
  mem_moves.mpr ⟨bs, a, cs, rfl, rfl⟩

/-- A step of a run is the machine's move from the state before it. -/
theorem move_of_mem {as : List α} {m : Move σ α ω} (h : m ∈ M.moves s as) :
    m = M.move m.pre m.act := by
  obtain ⟨bs, a, cs, -, rfl⟩ := mem_moves.mp h
  rfl

/-! ## Invariants -/

variable {I : σ → Prop}

theorem last_of_invariant (hs : I s) (hstep : ∀ s a, I s → I (M.next s a)) (as : List α) :
    I (M.last s as) := by
  induction as generalizing s with
  | nil => exact hs
  | cons a as ih => exact ih (hstep s a hs)

/-- **An invariant holds before and after every step.** -/
theorem moves_of_invariant (hs : I s) (hstep : ∀ s a, I s → I (M.next s a)) {as : List α}
    {m : Move σ α ω} (hm : m ∈ M.moves s as) : I m.pre ∧ I m.post := by
  obtain ⟨bs, a, cs, -, rfl⟩ := mem_moves.mp hm
  have hpre : I (M.last s bs) := last_of_invariant hs hstep bs
  exact ⟨hpre, hstep _ _ hpre⟩

/-- **An invariant that a step keeps exactly under a condition** holds after every step of a run
iff every step meets the condition. -/
theorem forall_post_iff {C : σ → α → Prop} (hs : I s)
    (hstep : ∀ s a, I s → (I (M.next s a) ↔ C s a)) (as : List α) :
    (∀ m ∈ M.moves s as, I m.post) ↔ ∀ m ∈ M.moves s as, C m.pre m.act := by
  induction as generalizing s with
  | nil => simp only [moves, List.not_mem_nil, false_implies, implies_true]
  | cons a as ih =>
    rw [moves, List.forall_mem_cons, List.forall_mem_cons]
    constructor
    · rintro ⟨hpost, hrest⟩
      exact ⟨(hstep s a hs).mp hpost, (ih hpost).mp hrest⟩
    · rintro ⟨hC, hrest⟩
      have hpost : I (M.next s a) := (hstep s a hs).mpr hC
      exact ⟨hpost, (ih hpost).mpr hrest⟩

/-- **Induction along a run**, with the steps taken so far in view. -/
theorem history_induction {P : List (Move σ α ω) → σ → Prop} (hnil : P [] s)
    (hstep : ∀ ms t a, P ms t → P (ms ++ [M.move t a]) (M.next t a)) (as : List α) :
    P (M.moves s as) (M.last s as) := by
  induction as using List.reverseRecOn with
  | nil => exact hnil
  | append_singleton as a ih =>
    rw [moves_concat, last_concat]
    exact hstep _ _ a ih

/-- **A relation between history and state that a step keeps exactly under a condition** holds
at every point of a run iff every step meets the condition. -/
theorem forall_prefix_iff {P : List (Move σ α ω) → σ → Prop} {C : σ → α → Prop} (hnil : P [] s)
    (hstep : ∀ ms t a, P ms t → (P (ms ++ [M.move t a]) (M.next t a) ↔ C t a)) (as : List α) :
    (∀ bs, bs <+: as → P (M.moves s bs) (M.last s bs)) ↔
      ∀ m ∈ M.moves s as, C m.pre m.act := by
  constructor
  · intro h m hm
    obtain ⟨bs, a, cs, rfl, rfl⟩ := mem_moves.mp hm
    have hpre := h bs (List.prefix_append bs (a :: cs))
    have hpost := h (bs ++ [a]) ⟨cs, by rw [List.append_assoc, List.singleton_append]⟩
    rw [moves_concat, last_concat] at hpost
    exact (hstep _ _ a hpre).mp hpost
  · intro h bs hbs
    induction bs using List.reverseRecOn with
    | nil => exact hnil
    | append_singleton bs a ih =>
      obtain ⟨cs, rfl⟩ := hbs
      rw [moves_concat, last_concat]
      refine (hstep _ _ a (ih ⟨a :: cs, by simp⟩)).mpr (h (M.move (M.last s bs) a) ?_)
      rw [List.append_assoc]
      exact move_mem_moves bs a cs

/-- **Step by step**: where the invariant makes `P` and `Q` the same for every step, a run meets
the one throughout iff it meets the other. -/
theorem forall_moves_congr {P Q : Move σ α ω → Prop} (hs : I s)
    (hstep : ∀ s a, I s → I (M.next s a)) (hiff : ∀ s a, I s → (P (M.move s a) ↔ Q (M.move s a)))
    (as : List α) : (∀ m ∈ M.moves s as, P m) ↔ ∀ m ∈ M.moves s as, Q m := by
  refine forall_congr' fun m => forall_congr' fun hm => ?_
  have hpre := (moves_of_invariant hs hstep hm).1
  rw [move_of_mem hm]
  exact hiff _ _ hpre

end Machine

end AyaBook.Lib
