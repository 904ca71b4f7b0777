import Mathlib.Data.List.Nodup
import AyaBook.Lib.Machine
import AyaBook.Lib.Traced

/-!
# The `task_setnice` hook

Model of `examples/lsm-nice/lsm-nice-ebpf/src/main.rs` and of the `PID` its userspace sets. The
kernel's tasks are threads: `pid` is the thread's own id, `tgid` the id of its process, and the
main thread's `pid` is its `tgid`. A run creates threads and requests nice values; a request takes
effect when the hook returns `0`.

`PID` is documented as the process to protect and set from `std::process::id()`, a `tgid`; the
hook compares it with `pid`.

* `taskSetnice_eq`: what the hook returns.
* `protected_iff`: **when a run keeps the process protected**: while no negative value is
  requested for a thread of it other than the main one.
-/

namespace AyaBook.LsmNice

open AyaBook.Lib

/-- What the model has of a `task_struct`. -/
structure TaskStruct where
  pid : Int32
  tgid : Int32
  nice : Int32
  deriving DecidableEq, Repr

/-- The record of the hook's `info!`. -/
structure Log where
  pid : Int32
  nice : Int32
  ret : Int32
  globalPid : Int32
  deriving DecidableEq, Repr

/-- The global `PID` for the userspace process `P`: `process::id() as i32`. -/
def globalPid (P : Int32) : Int32 :=
  let id : UInt32 := P.toUInt32
  id.toInt32

/-- `try_task_setnice`. -/
def tryTaskSetnice (PID : Int32) (p : TaskStruct) (nice ret : Int32) :
    Traced Log Int32 Int32 := do
  let globalPid := PID
  let pid := p.pid
  Traced.emit ⟨pid, nice, ret, globalPid⟩
  if ret ≠ 0 then
    Traced.fail ret
  else if pid = globalPid ∧ nice < 0 then
    Traced.fail (-1)
  else
    pure 0

/-- `task_setnice`. -/
def taskSetnice (PID : Int32) (p : TaskStruct) (nice ret : Int32) : Int32 :=
  (tryTaskSetnice PID p nice ret).handle id

/-- **The verdict**: the earlier one if it is a denial, else a denial of a negative value for the
thread `PID`. -/
theorem taskSetnice_eq (PID : Int32) (p : TaskStruct) (nice ret : Int32) :
    taskSetnice PID p nice ret =
      if ret ≠ 0 then ret else if p.pid = PID ∧ nice < 0 then -1 else 0 := by
  unfold taskSetnice tryTaskSetnice
  by_cases hret : ret ≠ 0
  · simp only [if_pos hret]
    rfl
  · simp only [if_neg hret]
    by_cases hdeny : p.pid = PID ∧ nice < 0
    · simp only [if_pos hdeny]
      rfl
    · simp only [if_neg hdeny]
      rfl

/-- The hook allows a request iff earlier programs did and it is not one it denies. -/
theorem taskSetnice_eq_zero_iff {PID : Int32} {p : TaskStruct} {nice ret : Int32} :
    taskSetnice PID p nice ret = 0 ↔ ret = 0 ∧ ¬ (p.pid = PID ∧ nice < 0) := by
  rw [taskSetnice_eq]
  by_cases hret : ret = 0
  · by_cases hdeny : p.pid = PID ∧ nice < 0
    · simp only [hret, hdeny, ne_eq, not_true_eq_false, if_false, and_self, if_true, and_false,
        iff_false]
      decide
    · simp only [hret, hdeny, ne_eq, not_true_eq_false, if_false, not_false_eq_true, and_self]
  · simp only [hret, ne_eq, not_false_eq_true, if_true, false_and]

theorem globalPid_eq (P : Int32) : globalPid P = P := Int32.toInt32_toUInt32 P

/-! ## The tasks of a system -/

/-- The tasks while the process `P` runs: thread ids are unique, and `P`'s main thread has the
thread id `P`. -/
structure System (P : Int32) where
  tasks : List TaskStruct
  nodup : (tasks.map TaskStruct.pid).Nodup
  leader : ∃ t ∈ tasks, t.pid = P ∧ t.tgid = P

/-- A new thread. Those of the process `P` start with a nice value that is not negative. -/
structure NewThread (P : Int32) where
  task : TaskStruct
  nice_nonneg : task.tgid = P → 0 ≤ task.nice

/-- What happens: a thread is created, or a nice value is requested for the thread `tid`, with the
verdict `ret` of earlier LSM programs. -/
inductive Action (P : Int32) where
  | spawn (t : NewThread P)
  | setnice (tid nice ret : Int32)

namespace System

variable {P : Int32}

/-- The thread with the id `tid`. -/
def find? (s : System P) (tid : Int32) : Option TaskStruct := s.tasks.find? (·.pid = tid)

/-- Add a thread; its id must be new. -/
def spawn (s : System P) (t : TaskStruct) : System P :=
  if h : t.pid ∈ s.tasks.map TaskStruct.pid then s
  else
    { tasks := t :: s.tasks
      nodup := List.nodup_cons.mpr ⟨h, s.nodup⟩
      leader := by
        obtain ⟨l, hl, hP⟩ := s.leader
        exact ⟨l, List.mem_cons_of_mem t hl, hP⟩ }

/-- The task with the nice value `nice`, if it is the thread `tid`. -/
def renice (tid nice : Int32) (t : TaskStruct) : TaskStruct :=
  if t.pid = tid then { t with nice := nice } else t

@[simp] theorem renice_pid (tid nice : Int32) (t : TaskStruct) :
    (renice tid nice t).pid = t.pid := by
  unfold renice
  split <;> rfl

@[simp] theorem renice_tgid (tid nice : Int32) (t : TaskStruct) :
    (renice tid nice t).tgid = t.tgid := by
  unfold renice
  split <;> rfl

/-- Set the nice value of the thread `tid`. -/
def setNice (s : System P) (tid nice : Int32) : System P where
  tasks := s.tasks.map (renice tid nice)
  nodup := by
    have hpids : (s.tasks.map (renice tid nice)).map TaskStruct.pid =
        s.tasks.map TaskStruct.pid := by
      rw [List.map_map]
      exact List.map_congr_left fun t _ => renice_pid tid nice t
    rw [hpids]
    exact s.nodup
  leader := by
    obtain ⟨l, hl, hpid, htgid⟩ := s.leader
    refine ⟨renice tid nice l, List.mem_map_of_mem hl, ?_, ?_⟩
    · rw [renice_pid, hpid]
    · rw [renice_tgid, htgid]

/-- The system with the hook attached by `P`. A request is answered with the hook's verdict. -/
def machine (P : Int32) : Machine (System P) (Action P) (Option Int32) where
  step s
    | .spawn t => (s.spawn t.task, none)
    | .setnice tid nice ret =>
      match s.find? tid with
      | none => (s, none)
      | some t =>
        let verdict := taskSetnice (globalPid P) t nice ret
        (if verdict = 0 then s.setNice tid nice else s, some verdict)

/-- Every thread of the process has a nice value that is not negative. -/
def Protected (s : System P) : Prop := ∀ t ∈ s.tasks, t.tgid = P → 0 ≤ t.nice

instance (s : System P) : Decidable s.Protected :=
  inferInstanceAs (Decidable (∀ t ∈ s.tasks, t.tgid = P → 0 ≤ t.nice))

/-- A request on a task of another process, or already denied, is answered with the verdict it
came with. -/
def Transparent (m : Move (System P) (Action P) (Option Int32)) : Prop :=
  ∀ tid nice ret, m.act = .setnice tid nice ret → ∀ t ∈ m.pre.tasks, t.pid = tid →
    t.tgid ≠ P ∨ ret ≠ 0 → m.out = some ret

/-- The request that slips through: a negative value for a thread of the process other than the
main one, not denied before. -/
def SlipsThrough (s : System P) : Action P → Prop
  | .spawn _ => False
  | .setnice tid nice ret =>
    ret = 0 ∧ nice < 0 ∧ tid ≠ P ∧ ∃ t ∈ s.tasks, t.pid = tid ∧ t.tgid = P

instance (s : System P) (a : Action P) : Decidable (s.SlipsThrough a) :=
  match a with
  | .spawn _ => inferInstanceAs (Decidable False)
  | .setnice .. => inferInstanceAs (Decidable (_ ∧ _ ∧ _ ∧ _))

/-! ## One step -/

/-- Two threads with one id are the same task. -/
theorem eq_of_pid_eq {s : System P} {t u : TaskStruct} (ht : t ∈ s.tasks) (hu : u ∈ s.tasks)
    (h : t.pid = u.pid) : t = u :=
  List.inj_on_of_nodup_map s.nodup ht hu h

theorem mem_of_find? {s : System P} {tid : Int32} {t : TaskStruct} (h : s.find? tid = some t) :
    t ∈ s.tasks ∧ t.pid = tid := by
  unfold find? at h
  have hpid := List.find?_some h
  exact ⟨List.mem_of_find?_eq_some h, of_decide_eq_true hpid⟩

theorem find?_pid {s : System P} {t : TaskStruct} (ht : t ∈ s.tasks) :
    s.find? t.pid = some t := by
  cases hfind : s.find? t.pid with
  | none =>
    have hne := List.find?_eq_none.mp hfind t ht
    exact absurd (decide_eq_true rfl) hne
  | some u =>
    obtain ⟨hu, hpid⟩ := mem_of_find? hfind
    rw [eq_of_pid_eq hu ht hpid]

/-- **The thread with the id `P` is a thread of the process `P`.** -/
theorem tgid_of_pid {s : System P} {t : TaskStruct} (ht : t ∈ s.tasks) (h : t.pid = P) :
    t.tgid = P := by
  obtain ⟨l, hl, hpid, htgid⟩ := s.leader
  rw [eq_of_pid_eq ht hl (h.trans hpid.symm), htgid]

/-- A request on an existing thread. -/
theorem step_setnice {s : System P} {t : TaskStruct} (ht : t ∈ s.tasks) (nice ret : Int32) :
    (machine P).step s (.setnice t.pid nice ret) =
      (if taskSetnice P t nice ret = 0 then s.setNice t.pid nice else s,
        some (taskSetnice P t nice ret)) := by
  have hfind : s.find? t.pid = some t := find?_pid ht
  simp only [machine, hfind, globalPid_eq]

theorem protected_spawn {s : System P} (h : s.Protected) (t : NewThread P) :
    (s.spawn t.task).Protected := by
  unfold spawn
  split
  · exact h
  · intro u hu
    rcases List.mem_cons.mp hu with rfl | hu
    · exact t.nice_nonneg
    · exact h u hu

/-- **A new nice value** keeps the process protected iff it is not negative or the thread is not of
the process. -/
theorem protected_setNice_iff {s : System P} (h : s.Protected) {t : TaskStruct} (ht : t ∈ s.tasks)
    {nice : Int32} : (s.setNice t.pid nice).Protected ↔ (t.tgid = P → 0 ≤ nice) := by
  constructor
  · intro hpost htgid
    have hmem : renice t.pid nice t ∈ (s.setNice t.pid nice).tasks := List.mem_map_of_mem ht
    have hge := hpost _ hmem ((renice_tgid _ _ _).trans htgid)
    rw [renice, if_pos rfl] at hge
    exact hge
  · intro hnice u hu
    obtain ⟨v, hv, rfl⟩ := List.mem_map.mp hu
    rw [renice_tgid]
    intro htgid
    unfold renice
    split
    · rename_i hpid
      exact hnice (eq_of_pid_eq hv ht hpid ▸ htgid)
    · exact h v hv htgid

theorem slipsThrough_iff {s : System P} {t : TaskStruct} (ht : t ∈ s.tasks) {nice ret : Int32} :
    s.SlipsThrough (.setnice t.pid nice ret) ↔
      ret = 0 ∧ nice < 0 ∧ t.pid ≠ P ∧ t.tgid = P := by
  constructor
  · rintro ⟨hret, hneg, hpid, u, hu, hut, htgid⟩
    exact ⟨hret, hneg, hpid, eq_of_pid_eq hu ht hut ▸ htgid⟩
  · rintro ⟨hret, hneg, hpid, htgid⟩
    exact ⟨hret, hneg, hpid, t, ht, rfl, htgid⟩

/-- **One request** keeps the process protected iff it does not slip through. -/
theorem protected_setnice_iff {s : System P} (hs : s.Protected) {t : TaskStruct}
    (ht : t ∈ s.tasks) (nice ret : Int32) :
    ((machine P).next s (.setnice t.pid nice ret)).Protected ↔
      ¬ s.SlipsThrough (.setnice t.pid nice ret) := by
  rw [Machine.next, step_setnice ht, slipsThrough_iff ht]
  simp only
  split
  · rename_i hallowed
    obtain ⟨hret, hdeny⟩ := taskSetnice_eq_zero_iff.mp hallowed
    rw [protected_setNice_iff hs ht]
    constructor
    · rintro hnice ⟨-, hneg, -, htgid⟩
      exact Int32.not_le.mpr hneg (hnice htgid)
    · intro hslip htgid
      rw [← Int32.not_lt]
      exact fun hneg => hslip ⟨hret, hneg, fun hpid => hdeny ⟨hpid, hneg⟩, htgid⟩
  · rename_i hdenied
    refine iff_of_true hs ?_
    rintro ⟨hret, -, hpid, -⟩
    exact hdenied (taskSetnice_eq_zero_iff.mpr ⟨hret, fun hdeny => hpid hdeny.1⟩)

theorem transparent_move (s : System P) (a : Action P) : Transparent ((machine P).move s a) := by
  intro tid nice ret ha t ht htid hother
  obtain rfl : a = .setnice tid nice ret := ha
  subst htid
  have ht' : t ∈ s.tasks := ht
  show ((machine P).step s _).2 = _
  rw [step_setnice ht', Option.some.injEq, taskSetnice_eq]
  by_cases hret : ret = 0
  · have hpid : t.pid ≠ P := by
      intro hpid
      rcases hother with htgid | hne
      · exact htgid (tgid_of_pid ht' hpid)
      · exact hne hret
    simp only [hret, hpid, ne_eq, not_true_eq_false, if_false, false_and]
  · simp only [hret, ne_eq, not_false_eq_true, if_true]

/-- A step keeps the process protected iff it is not a request that slips through. -/
theorem protected_next_iff {s : System P} (hs : s.Protected) (a : Action P) :
    ((machine P).next s a).Protected ↔ ¬ s.SlipsThrough a := by
  cases a with
  | spawn t => exact iff_of_true (protected_spawn hs t) not_false
  | setnice tid nice ret =>
    cases hfind : s.find? tid with
    | some t =>
      obtain ⟨ht, rfl⟩ := mem_of_find? hfind
      exact protected_setnice_iff hs ht nice ret
    | none =>
      have hsame : (machine P).next s (.setnice tid nice ret) = s := by
        simp only [Machine.next, machine, hfind]
      rw [hsame]
      refine iff_of_true hs ?_
      rintro ⟨-, -, -, t, ht, rfl, -⟩
      rw [find?_pid ht] at hfind
      exact absurd hfind (by simp)

/-! ## Runs -/

/-- **When the hook enforces its policy**: in a run from a protected process, every state is
protected and every other request is answered with the verdict it came with, iff no request slips
through. -/
theorem protected_iff (s : System P) (hs : s.Protected) (as : List (Action P)) :
    (∀ m ∈ (machine P).moves s as, m.post.Protected ∧ Transparent m) ↔
      ∀ m ∈ (machine P).moves s as, ¬ m.pre.SlipsThrough m.act := by
  rw [← Machine.forall_post_iff (C := fun s a => ¬ s.SlipsThrough a) hs
    fun _ a h => protected_next_iff h a]
  constructor
  · exact fun h m hm => (h m hm).1
  · intro h m hm
    refine ⟨h m hm, ?_⟩
    rw [Machine.move_of_mem hm]
    exact transparent_move m.pre m.act

/-- The process 100 with its main thread. -/
def process100 : System 100 where
  tasks := [⟨100, 100, 0⟩]
  nodup := by decide
  leader := ⟨⟨100, 100, 0⟩, by decide, rfl, rfl⟩

/-- Its second thread. -/
def spawn101 : Action 100 := .spawn ⟨⟨101, 100, 0⟩, by decide⟩

/-- A negative value for the main thread is denied, a positive one for the second is not. -/
theorem protected_main_thread :
    process100.Protected ∧
      ∀ m ∈ (machine 100).moves process100 [spawn101, .setnice 100 (-5) 0, .setnice 101 5 0],
        m.post.Protected ∧ Transparent m :=
  ⟨by decide, (protected_iff process100 (by decide) _).mpr (by decide)⟩

/-- **The second thread is not protected**: its nice value becomes -5. -/
theorem second_thread_slips_through :
    ¬ ∀ (P : Int32) (s : System P), s.Protected → ∀ as : List (Action P),
      ∀ m ∈ (machine P).moves s as, m.post.Protected ∧ Transparent m := by
  intro h
  have hpost := (h 100 process100 (by decide) [spawn101, .setnice 101 (-5) 0] _
    (Machine.move_mem_moves [spawn101] _ [])).1
  exact absurd hpost (by decide)

end System

end AyaBook.LsmNice
