import Mathlib.Data.List.Basic

/-!
# Computations that leave a trace

`Traced ω ε α` is a computation that returns an `α` or fails with an `ε`, and leaves the list of
the events `ω` it caused on the way; a failure keeps the events before it. `bind` is the `?` of
the source: it goes on with the value, or stops at the failure.

`each` does a list of operations, up to the first one that fails (`each_cases`).

`Meets P Q E x` is the triple of such a computation: every event satisfies `P`, a returned value
satisfies `Q`, a failure is explained by the trace as `E` says. `Meets.bind` composes triples,
so a program's triple is read off its own steps.
-/

namespace AyaBook.Lib

/-- A computation with its events and its outcome. -/
structure Traced (ω ε α : Type) where
  trace : List ω
  result : Except ε α

namespace Traced

variable {ω ε α β : Type}

/-- Return `a`, causing nothing. -/
def ret (a : α) : Traced ω ε α := ⟨[], .ok a⟩

/-- Fail with `e`. -/
def fail (e : ε) : Traced ω ε α := ⟨[], .error e⟩

/-- Cause the event `w`. -/
def emit (w : ω) : Traced ω ε Unit := ⟨[w], .ok ()⟩

/-- The outcome of an operation that causes nothing. -/
def ofExcept (x : Except ε α) : Traced ω ε α := ⟨[], x⟩

/-- Go on with the returned value, or stop at the failure. -/
def bind (x : Traced ω ε α) (f : α → Traced ω ε β) : Traced ω ε β :=
  match x.result with
  | .ok a => ⟨x.trace ++ (f a).trace, (f a).result⟩
  | .error e => ⟨x.trace, .error e⟩

instance : Monad (Traced ω ε) where
  pure := ret
  bind := bind

/-- The returned value, or what the handler `h` makes of the failure. -/
def handle (x : Traced ω ε α) (h : ε → α) : α :=
  match x.result with
  | .ok a => a
  | .error e => h e

@[simp] theorem ofExcept_eq (x : Except ε α) : (ofExcept x : Traced ω ε α) = ⟨[], x⟩ := rfl

@[simp] theorem mk_ok_bind (t : List ω) (a : α) (f : α → Traced ω ε β) :
    (⟨t, .ok a⟩ : Traced ω ε α) >>= f = ⟨t ++ (f a).trace, (f a).result⟩ := rfl

theorem id_map_eq (x : Traced ω ε α) : id <$> x = x := by
  obtain ⟨t, r⟩ := x
  cases r with
  | ok a =>
    show (⟨t ++ [], .ok a⟩ : Traced ω ε α) = ⟨t, .ok a⟩
    rw [List.append_nil]
  | error e => rfl

theorem bind_bind_eq {γ : Type} (x : Traced ω ε α) (f : α → Traced ω ε β)
    (g : β → Traced ω ε γ) : x >>= f >>= g = x >>= fun a => f a >>= g := by
  obtain ⟨t, r⟩ := x
  cases r with
  | error e => rfl
  | ok a =>
    simp only [mk_ok_bind]
    obtain ⟨t', r'⟩ := f a
    cases r' with
    | error e => rfl
    | ok b => simp only [mk_ok_bind, List.append_assoc]

instance : LawfulMonad (Traced ω ε) := LawfulMonad.mk' _ id_map_eq (fun _ _ => rfl) bind_bind_eq

/-! ## Lists of operations -/

/-- Do the operations `ws` one after the other; `r` says how each one ends. -/
def each (r : ω → Except ε Unit) : List ω → Traced ω ε Unit
  | [] => pure ()
  | w :: ws => (⟨[w], r w⟩ : Traced ω ε Unit) >>= fun _ => each r ws

variable {r : ω → Except ε Unit} {w : ω} {ws : List ω}

theorem each_cons_of_ok (h : r w = .ok ()) :
    each r (w :: ws) = ⟨w :: (each r ws).trace, (each r ws).result⟩ := by
  rw [each, h]
  rfl

theorem each_cons_of_error {e : ε} (h : r w = .error e) :
    each r (w :: ws) = ⟨[w], .error e⟩ := by
  rw [each, h]
  rfl

/-- **How far a list of operations gets**: to its end, or to the first one that fails. -/
theorem each_cases (r : ω → Except ε Unit) (ws : List ω) :
    (each r ws = ⟨ws, .ok ()⟩ ∧ ∀ w ∈ ws, r w = .ok ()) ∨
    ∃ pre w post e, ws = pre ++ w :: post ∧ (∀ v ∈ pre, r v = .ok ()) ∧ r w = .error e ∧
      each r ws = ⟨pre ++ [w], .error e⟩ := by
  induction ws with
  | nil => exact Or.inl ⟨rfl, fun w hw => absurd hw List.not_mem_nil⟩
  | cons w ws ih =>
    cases hw : r w with
    | error e =>
      exact Or.inr ⟨[], w, ws, e, rfl, fun v hv => absurd hv List.not_mem_nil, hw,
        each_cons_of_error hw⟩
    | ok u =>
      rcases ih with ⟨heach, hall⟩ | ⟨pre, v, post, e, rfl, hpre, hv, heach⟩
      · refine Or.inl ⟨by rw [each_cons_of_ok hw, heach], ?_⟩
        exact List.forall_mem_cons.mpr ⟨hw, hall⟩
      · refine Or.inr ⟨w :: pre, v, post, e, rfl, List.forall_mem_cons.mpr ⟨hw, hpre⟩, hv, ?_⟩
        rw [each_cons_of_ok hw, heach]
        rfl

/-! ## Triples -/

/-- Every event is a `P`, a returned value is a `Q`, a failure is explained by `E`. -/
structure Meets (P : ω → Prop) (Q : α → Prop) (E : List ω → ε → Prop) (x : Traced ω ε α) :
    Prop where
  events : ∀ w ∈ x.trace, P w
  value : ∀ a, x.result = .ok a → Q a
  failure : ∀ e, x.result = .error e → E x.trace e

variable {P : ω → Prop} {Q : α → Prop} {R : β → Prop} {E : List ω → ε → Prop}

theorem Meets.pure {a : α} (ha : Q a) : Meets P Q E (Pure.pure a) where
  events _ hw := absurd hw List.not_mem_nil
  value _ h := Except.ok.inj h ▸ ha
  failure _ h := nomatch h

theorem Meets.fail {e : ε} (he : E [] e) : Meets P Q E (Traced.fail e : Traced ω ε α) where
  events _ hw := absurd hw List.not_mem_nil
  value _ h := nomatch h
  failure _ h := Except.error.inj h ▸ he

theorem Meets.emit {w : ω} (hw : P w) : Meets P (fun _ => True) E (Traced.emit w) where
  events _ hv := List.mem_singleton.mp hv ▸ hw
  value _ _ := trivial
  failure _ h := nomatch h

/-- **Sequencing.** An explanation of a failure must survive the events before it. -/
theorem Meets.bind (hE : ∀ t t' e, E t' e → E (t ++ t') e) {x : Traced ω ε α}
    {f : α → Traced ω ε β} (hx : Meets P Q E x) (hf : ∀ a, Q a → Meets P R E (f a)) :
    Meets P R E (x >>= f) := by
  obtain ⟨t, r⟩ := x
  cases r with
  | error e =>
    refine ⟨hx.events, fun a h => ?_, fun e' h => ?_⟩
    · exact nomatch h
    · obtain rfl := Except.error.inj h
      exact hx.failure e rfl
  | ok a =>
    have hfa := hf a (hx.value a rfl)
    refine ⟨fun w hw => ?_, hfa.value, fun e h => hE _ _ _ (hfa.failure e h)⟩
    rcases List.mem_append.mp hw with hw | hw
    · exact hx.events w hw
    · exact hfa.events w hw

/-- Branching. -/
theorem Meets.ite {c : Prop} [Decidable c] {x y : Traced ω ε α} (hx : c → Meets P Q E x)
    (hy : ¬ c → Meets P Q E y) : Meets P Q E (if c then x else y) := by
  split
  · rename_i h; exact hx h
  · rename_i h; exact hy h

end Traced

end AyaBook.Lib
