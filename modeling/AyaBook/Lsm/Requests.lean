import AyaBook.Lsm.TaskSetnice

/-!
# What a run of requests leaves

The nice values after any run of `lsm-nice`, from the requests alone: whether the hook lets one
through does not depend on the requests before it.

* `nice_last`: **the last request that was let through decides** a thread's nice value.
* `main_thread_protected`: what the hook does enforce, in every run: the main thread of the process
  never comes to a negative value.
* `chain_eq`: the verdict of several loaded instances, whatever their order.
-/

namespace AyaBook.LsmNice

open AyaBook.Lib

/-! ## Several instances -/

/-- The hooks of several instances, each given the verdict of the one before. -/
def chain (PIDs : List Int32) (p : TaskStruct) (nice ret : Int32) : Int32 :=
  PIDs.foldl (fun ret PID => taskSetnice PID p nice ret) ret

/-- A denial is passed on. -/
theorem chain_of_denied {ret : Int32} (h : ret ≠ 0) (PIDs : List Int32) (p : TaskStruct)
    (nice : Int32) : chain PIDs p nice ret = ret := by
  induction PIDs with
  | nil => rfl
  | cons PID PIDs ih =>
    have hpass : taskSetnice PID p nice ret = ret := by rw [taskSetnice_eq, if_pos h]
    show chain PIDs p nice (taskSetnice PID p nice ret) = ret
    rw [hpass, ih]

/-- **Several instances** pass an earlier denial on with its code, and deny a negative value for
each of the threads they name. Neither their order nor a repetition matters. -/
theorem chain_eq (PIDs : List Int32) (p : TaskStruct) (nice ret : Int32) :
    chain PIDs p nice ret =
      if ret ≠ 0 then ret else if p.pid ∈ PIDs ∧ nice < 0 then -1 else 0 := by
  by_cases hret : ret ≠ 0
  · rw [if_pos hret, chain_of_denied hret]
  · rw [not_not] at hret
    subst hret
    rw [if_neg (not_not.mpr rfl)]
    induction PIDs with
    | nil => rfl
    | cons PID PIDs ih =>
      show chain PIDs p nice (taskSetnice PID p nice 0) = _
      rw [taskSetnice_eq, if_neg (not_not.mpr rfl)]
      by_cases hdeny : p.pid = PID ∧ nice < 0
      · rw [if_pos hdeny, chain_of_denied (by decide),
          if_pos ⟨hdeny.1 ▸ List.mem_cons_self, hdeny.2⟩]
      · rw [if_neg hdeny, ih]
        refine if_congr ?_ rfl rfl
        rw [List.mem_cons]
        tauto

namespace System

variable {P : Int32}

/-! ## The requests let through -/

/-- The value a request sets for the thread `tid`, if the hook lets it through. -/
def granted (tid : Int32) : Action P → Option Int32
  | .spawn _ => none
  | .setnice tid' nice ret =>
    if tid' = tid ∧ ret = 0 ∧ ¬ (tid = P ∧ nice < 0) then some nice else none

/-- The nice value a run leaves a thread with that had the value `nice`. -/
def niceAfter (tid nice : Int32) (as : List (Action P)) : Int32 :=
  (as.filterMap (granted tid)).getLast?.getD nice

theorem niceAfter_concat (tid nice : Int32) (as : List (Action P)) (a : Action P) :
    niceAfter tid nice (as ++ [a]) = (granted tid a).getD (niceAfter tid nice as) := by
  unfold niceAfter
  rw [List.filterMap_append]
  cases h : granted tid a with
  | none => simp [h]
  | some v => simp [h]

/-! ## One step -/

theorem mem_spawn {s : System P} {t : TaskStruct} (ht : t ∈ s.tasks) (u : TaskStruct) :
    t ∈ (s.spawn u).tasks := by
  unfold spawn
  split
  · exact ht
  · exact List.mem_cons_of_mem u ht

/-- **One step**, for a thread that is there. -/
theorem mem_next {s : System P} {t : TaskStruct} (ht : t ∈ s.tasks) (a : Action P) :
    { t with nice := (granted t.pid a).getD t.nice } ∈ ((machine P).next s a).tasks := by
  cases a with
  | spawn u => exact mem_spawn ht u.task
  | setnice tid nice ret =>
    by_cases htid : tid = t.pid
    · subst htid
      have hgranted : granted t.pid (.setnice t.pid nice ret : Action P) =
          if taskSetnice P t nice ret = 0 then some nice else none := by
        simp only [granted, true_and, taskSetnice_eq_zero_iff]
      rw [Machine.next, step_setnice ht, hgranted]
      by_cases hzero : taskSetnice P t nice ret = 0
      · simp only [if_pos hzero]
        have hrenice : renice t.pid nice t = { t with nice := nice } := if_pos rfl
        exact hrenice ▸ List.mem_map_of_mem ht
      · simp only [if_neg hzero]
        exact ht
    · have hnone : granted t.pid (.setnice tid nice ret : Action P) = none :=
        if_neg fun h => htid h.1
      have hrenice : renice tid nice t = t := if_neg fun h => htid h.symm
      rw [hnone]
      show t ∈ ((machine P).next s (.setnice tid nice ret)).tasks
      simp only [Machine.next, machine]
      split
      · exact ht
      · simp only
        split
        · exact hrenice ▸ List.mem_map_of_mem ht
        · exact ht

/-! ## Runs -/

theorem mem_last (s : System P) (as : List (Action P)) {t : TaskStruct} (ht : t ∈ s.tasks) :
    { t with nice := niceAfter t.pid t.nice as } ∈ ((machine P).last s as).tasks := by
  induction as using List.reverseRecOn with
  | nil => exact ht
  | append_singleton as a ih =>
    rw [Machine.last_concat, niceAfter_concat]
    exact mem_next ih a

/-- **What a run leaves a thread with**: the value of the last request for it that the programs
before allowed and that is not a negative value for the main thread of `P`; or else the value it
had. Nothing else of it changes, and no other thread comes to have its id. -/
theorem nice_last (s : System P) (as : List (Action P)) : ∀ t ∈ s.tasks, ∀ u,
    (u ∈ ((machine P).last s as).tasks ∧ u.pid = t.pid) ↔
      u = { t with nice := niceAfter t.pid t.nice as } := by
  intro t ht u
  have hmem := mem_last s as ht
  constructor
  · rintro ⟨hu, hpid⟩
    exact eq_of_pid_eq hu hmem hpid
  · rintro rfl
    exact ⟨hmem, rfl⟩

/-- The main thread of process 100, through a request for 5 and one for -5. -/
theorem nice_last_process100 :
    ⟨100, 100, 5⟩ ∈
      ((machine 100).last process100 [.setnice 100 5 0, .setnice 100 (-5) 0]).tasks :=
  ((nice_last process100 _ ⟨100, 100, 0⟩ (by decide) ⟨100, 100, 5⟩).mpr rfl).1

/-- No negative value is granted to the main thread. -/
theorem granted_nonneg {a : Action P} {nice : Int32} (h : granted P a = some nice) : 0 ≤ nice := by
  cases a with
  | spawn u => exact nomatch h
  | setnice tid n ret =>
    rw [granted] at h
    split at h
    · rename_i hgranted
      obtain rfl := Option.some.inj h
      rw [← Int32.not_lt]
      exact fun hneg => hgranted.2.2 ⟨rfl, hneg⟩
    · exact nomatch h

/-- **The main thread is protected**: if it starts with a nice value that is not negative, it has
one in every state of every run. -/
theorem main_thread_protected (s : System P) (hs : ∀ t ∈ s.tasks, t.pid = P → 0 ≤ t.nice)
    (as : List (Action P)) : ∀ t ∈ ((machine P).last s as).tasks, t.pid = P → 0 ≤ t.nice := by
  intro t ht hpid
  obtain ⟨l, hl, hP, -⟩ := s.leader
  have hsame : { l with nice := niceAfter l.pid l.nice as } = t :=
    eq_of_pid_eq (mem_last s as hl) ht (hP.trans hpid.symm)
  rw [← hsame]
  show 0 ≤ niceAfter l.pid l.nice as
  rw [niceAfter, hP]
  cases hlast : (as.filterMap (granted P)).getLast? with
  | none => exact hs l hl hP
  | some nice =>
    obtain ⟨a, -, hgranted⟩ := List.mem_filterMap.mp (List.mem_of_getLast? hlast)
    exact granted_nonneg hgranted

/-- The main thread of process 100, through a request for -5 and one for 5. -/
theorem main_thread_protected_process100 :
    ¬ ∃ t ∈ ((machine 100).last process100 [.setnice 100 (-5) 0, .setnice 100 5 0]).tasks,
      t.pid = 100 ∧ t.nice < 0 := by
  rintro ⟨t, ht, hpid, hneg⟩
  exact Int32.not_le.mpr hneg (main_thread_protected process100 (by decide) _ t ht hpid)

end System

end AyaBook.LsmNice
