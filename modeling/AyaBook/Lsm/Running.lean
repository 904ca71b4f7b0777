import AyaBook.Lsm.Processes

/-!
# How `myapp` ends

Model of the last part of `try_main` in `examples/aya-tool/myapp/src/main.rs`, from a successful
`ctrlc::set_handler` on: a loop that sleeps while the shared `running` is set, the handler's thread
that clears it, and the tasks that are created meanwhile. The handler may run at any moment, and
any number of times. When `try_main` returns it drops `bpf`, and the hook with it.

* `returned_iff`: **`myapp` returns iff the handler has run, and two or three steps of its own
  ago**, in every interleaving.
* `refines_hook`: **until then it is the hook that answers**, as if nothing else ran, and from then
  on nothing does.
-/

namespace AyaBook.Myapp

open AyaBook.Lib

/-- Where `try_main` is. -/
inductive Point where
  /-- At `while running.load(Ordering::SeqCst)`. -/
  | check
  /-- In `thread::sleep(Duration::from_millis(500))`. -/
  | sleep
  /-- At `Ok(())`, with `bpf` still there. -/
  | exiting
  | returned
  deriving DecidableEq, Repr

/-- The shared flag, where `try_main` is, and the hook's map. -/
structure Running where
  running : Bool
  point : Point
  processes : Processes

/-- What may happen next. -/
inductive Action where
  /-- A step of `try_main`. -/
  | main
  /-- `r.store(false, Ordering::SeqCst)`. -/
  | handler
  /-- The kernel creates a task. -/
  | create (ctx : TaskAlloc)

/-- A step of `try_main`. -/
def Point.next (running : Bool) : Point → Point
  | check => if running then sleep else exiting
  | sleep => check
  | exiting => returned
  | returned => returned

/-- The steps `try_main` has left, once the flag is cleared. -/
def Point.rank : Point → Nat
  | sleep => 3
  | check => 2
  | exiting => 1
  | returned => 0

theorem Point.rank_next (p : Point) : (p.next false).rank = p.rank - 1 := by
  cases p <;> rfl

theorem Point.rank_eq_zero {p : Point} : p.rank = 0 ↔ p = returned := by
  cases p <;> simp [rank]

namespace Running

/-- After `set_handler`. -/
def start : Running := ⟨true, .check, .empty⟩

/-- `try_main`, the handler, and the creations of tasks with the verdict of the LSM programs. -/
def machine : Machine Running Action (Option Int32) where
  step s
    | .main => ({ s with point := s.point.next s.running }, none)
    | .handler => ({ s with running := false }, none)
    | .create ctx =>
      if s.point = .returned then (s, some ctx.retval)
      else
        let (processes, ret) := taskAlloc s.processes ctx
        ({ s with processes }, some ret)

/-- The number of steps `try_main` has taken. -/
def mains (as : List Action) : Nat := as.countP fun | .main => true | _ => false

/-- The tasks that were created. -/
def creations (as : List Action) : List TaskAlloc :=
  as.filterMap fun | .create ctx => some ctx | _ => none

/-! ## One step -/

variable {s : Running}

theorem next_create (ctx : TaskAlloc) :
    (machine.next s (.create ctx)).running = s.running ∧
      (machine.next s (.create ctx)).point = s.point := by
  by_cases h : s.point = .returned <;> simp [Machine.next, machine, h]

theorem move_create_of_returned (h : s.point = .returned) (ctx : TaskAlloc) :
    machine.step s (.create ctx) = (s, some ctx.retval) := by
  simp only [machine]
  exact if_pos h

theorem move_create (h : s.point ≠ .returned) (ctx : TaskAlloc) :
    machine.step s (.create ctx) =
      ({ s with processes := Myapp.machine.next s.processes ctx },
        some (Myapp.machine.move s.processes ctx).out) := by
  simp only [machine]
  exact if_neg h

/-! ## Before the handler -/

theorem running_last {as : List Action} (has : Action.handler ∉ as) :
    (machine.last s as).running = s.running := by
  induction as generalizing s with
  | nil => rfl
  | cons a as ih =>
    have hstep : (machine.next s a).running = s.running := by
      cases a with
      | main => rfl
      | handler => exact absurd List.mem_cons_self has
      | create ctx => exact (next_create ctx).1
    show (machine.last (machine.next s a) as).running = s.running
    rw [ih (fun h => has (List.mem_cons_of_mem a h)), hstep]

/-- Checking and sleeping in turn, while the flag is set. -/
theorem point_last {as : List Action} (has : Action.handler ∉ as) :
    (machine.last start as).point = if mains as % 2 = 0 then .check else .sleep := by
  induction as using List.reverseRecOn with
  | nil => rfl
  | append_singleton as a ih =>
    rw [List.mem_append, not_or] at has
    have hrunning : (machine.last start as).running = true := running_last has.1
    rw [Machine.last_concat, mains, List.countP_append, ← mains]
    cases a with
    | main =>
      show (machine.last start as).point.next (machine.last start as).running =
        if (mains as + 1) % 2 = 0 then .check else .sleep
      rw [hrunning, ih has.1]
      by_cases h : mains as % 2 = 0
      · rw [if_pos h, if_neg (by omega)]
        rfl
      · rw [if_neg h, if_pos (by omega)]
        rfl
    | handler => exact absurd List.mem_cons_self has.2
    | create ctx => rw [(next_create ctx).2, ih has.1]; rfl

/-! ## After the handler -/

/-- A cleared flag stays so, and every step of `try_main` is one less to take. -/
theorem rank_last (hs : s.running = false) (as : List Action) :
    (machine.last s as).point.rank = s.point.rank - mains as := by
  induction as generalizing s with
  | nil => rfl
  | cons a as ih =>
    show (machine.last (machine.next s a) as).point.rank = _
    rw [mains, List.countP_cons, ← mains]
    cases a with
    | main =>
      have hpoint : (machine.next s .main).point = s.point.next false := hs ▸ rfl
      rw [ih (show (machine.next s .main).running = false from hs), hpoint, Point.rank_next,
        Nat.sub_sub]
      exact congrArg _ (Nat.add_comm 1 _)
    | handler => exact ih rfl
    | create ctx =>
      rw [ih ((next_create ctx).1.trans hs), (next_create ctx).2]
      rfl

/-- **When `myapp` has returned**: the handler has run, and since its first run `try_main` has taken
two steps, or three if it was asleep then. -/
theorem returned_iff (as : List Action) :
    (machine.last start as).point = .returned ↔
      ∃ pre post, as = pre ++ .handler :: post ∧ .handler ∉ pre ∧
        mains pre % 2 + 2 ≤ mains post := by
  have hsplit : ∀ pre post, as = pre ++ .handler :: post → Action.handler ∉ pre →
      ((machine.last start as).point = .returned ↔ mains pre % 2 + 2 ≤ mains post) := by
    rintro pre post rfl hpre
    have hrank := rank_last (s := machine.next (machine.last start pre) .handler) rfl post
    have hpoint : (machine.next (machine.last start pre) .handler).point =
        if mains pre % 2 = 0 then .check else .sleep := point_last hpre
    rw [← Point.rank_eq_zero, Machine.last_append]
    show (machine.last (machine.next (machine.last start pre) .handler) post).point.rank = 0 ↔ _
    rw [hrank, hpoint]
    by_cases h : mains pre % 2 = 0
    · rw [if_pos h, Point.rank]
      omega
    · rw [if_neg h, Point.rank]
      omega
  constructor
  · intro hreturned
    by_cases hmem : Action.handler ∈ as
    · obtain ⟨pre, post, has, hpre⟩ := List.eq_append_cons_of_mem hmem
      exact ⟨pre, post, has, hpre, (hsplit pre post has hpre).mp hreturned⟩
    · rw [point_last hmem] at hreturned
      split at hreturned
      · exact nomatch hreturned
      · exact nomatch hreturned
  · rintro ⟨pre, post, has, hpre, hmains⟩
    exact (hsplit pre post has hpre).mpr hmains

/-! ## The hook meanwhile -/

/-- Nothing but a creation answers. -/
def verdicts (s : Running) (as : List Action) : List Int32 :=
  (machine.moves s as).filterMap Move.out

theorem verdicts_returned (hs : s.point = .returned) (as : List Action) :
    verdicts s as = (creations as).map TaskAlloc.retval ∧
      (machine.last s as).processes = s.processes := by
  induction as generalizing s with
  | nil => exact ⟨rfl, rfl⟩
  | cons a as ih =>
    have hnext : (machine.next s a).point = .returned ∧
        (machine.next s a).processes = s.processes := by
      cases a with
      | main => exact ⟨congrArg (Point.next s.running) hs, rfl⟩
      | handler => exact ⟨hs, rfl⟩
      | create ctx =>
        rw [Machine.next, move_create_of_returned hs]
        exact ⟨hs, rfl⟩
    obtain ⟨hverdicts, hprocesses⟩ := ih hnext.1
    refine ⟨?_, hprocesses.trans hnext.2⟩
    show (machine.move s a :: machine.moves (machine.next s a) as).filterMap Move.out = _
    rw [List.filterMap_cons]
    cases a with
    | main => exact hverdicts
    | handler => exact hverdicts
    | create ctx =>
      have hout : (machine.move s (.create ctx)).out = some ctx.retval := by
        rw [Machine.move, move_create_of_returned hs]
      rw [hout]
      exact congrArg (ctx.retval :: ·) hverdicts

/-- **Until `myapp` returns, the hook answers**: a run falls in two, before and after the return.
The first part has the verdicts of the hook and leaves its map, as if only the hook had run; in the
second, the verdicts of the programs before stand. -/
theorem refines_hook (s : Running) (as : List Action) :
    ∃ attached detached, as = attached ++ detached ∧
      (∀ m ∈ machine.moves s attached, m.pre.point ≠ .returned) ∧
      (detached ≠ [] → (machine.last s attached).point = .returned) ∧
      (machine.last s as).processes = Myapp.machine.last s.processes (creations attached) ∧
      verdicts s as =
        (Myapp.machine.moves s.processes (creations attached)).map Move.out ++
          (creations detached).map TaskAlloc.retval := by
  induction as generalizing s with
  | nil =>
    exact ⟨[], [], rfl, fun m hm => absurd hm List.not_mem_nil, fun h => absurd rfl h, rfl, rfl⟩
  | cons a as ih =>
    by_cases hs : s.point = .returned
    · obtain ⟨hverdicts, hprocesses⟩ := verdicts_returned hs (a :: as)
      exact ⟨[], a :: as, rfl, fun m hm => absurd hm List.not_mem_nil, fun _ => hs, hprocesses,
        hverdicts⟩
    · obtain ⟨attached, detached, rfl, hpre, hreturned, hprocesses, hverdicts⟩ :=
        ih (machine.next s a)
      refine ⟨a :: attached, detached, rfl, ?_, hreturned, ?_, ?_⟩
      · rw [Machine.moves, List.forall_mem_cons]
        exact ⟨hs, hpre⟩
      · cases a with
        | main => exact hprocesses
        | handler => exact hprocesses
        | create ctx =>
          have hnext : (machine.next s (.create ctx)).processes =
              Myapp.machine.next s.processes ctx := by rw [Machine.next, move_create hs]
          rw [hnext] at hprocesses
          exact hprocesses
      · show (machine.move s a :: machine.moves (machine.next s a) _).filterMap Move.out = _
        rw [List.filterMap_cons]
        cases a with
        | main => exact hverdicts
        | handler => exact hverdicts
        | create ctx =>
          have hout : (machine.move s (.create ctx)).out =
              some (Myapp.machine.move s.processes ctx).out := by
            rw [Machine.move, move_create hs]
          have hnext : (machine.next s (.create ctx)).processes =
              Myapp.machine.next s.processes ctx := by rw [Machine.next, move_create hs]
          rw [hnext] at hverdicts
          rw [hout]
          exact congrArg ((Myapp.machine.move s.processes ctx).out :: ·) hverdicts

end Running

end AyaBook.Myapp
