import AyaBook.Lib.BoundedMap
import AyaBook.Lib.Machine

/-!
# The `task_alloc` hook

Model of `examples/aya-tool/myapp-ebpf/src/main.rs`: record the pid of each new task in
`PROCESSES`, then go along with the verdict of the LSM programs before. A run is a list of calls,
from the empty map; nothing deletes from the map.

The insert comes first, and its `?` returns the kernel's error before the earlier verdict is
looked at.

* `taskAlloc_eq`: what one call returns and leaves in the map.
* `returns_retval_iff`: **when the hook is transparent throughout a run**: each time the pid is in
  the map or there is room, unless the error happens to be the earlier verdict.
* `denies_when_full`: after 32768 different pids, every new one is denied.
-/

namespace AyaBook.Myapp

open AyaBook.Lib

/-- `PROCESSES`, from process id to process id. -/
abbrev Processes := BoundedMap Int32 Int32 32768

/-- What a map operation returns when it fails. -/
structure Errno where
  val : Int64
  ge : -4095 ≤ val.toInt
  le : val.toInt ≤ -1

/-- `e as i32`. -/
def Errno.asI32 (e : Errno) : Int32 := e.val.toInt32

/-- A call of the hook: its three arguments, of the task the `pid`, and the error the kernel
returns if it refuses the insert. -/
structure TaskAlloc where
  pid : Int32
  cloneFlags : UInt64
  retval : Int32
  errno : Errno

/-- `PROCESSES.insert(&pid, &pid, 0)`. -/
def insertPid (processes : Processes) (errno : Errno) (pid : Int32) : Except Int64 Processes :=
  match processes.insert pid pid with
  | some processes => .ok processes
  | none => .error errno.val

/-- `try_task_alloc`, with the map after it. -/
def tryTaskAlloc (processes : Processes) (ctx : TaskAlloc) : Processes × Except Int32 Int32 :=
  let _cloneFlags := ctx.cloneFlags
  let retval := ctx.retval
  let pid := ctx.pid
  match insertPid processes ctx.errno pid with
  | .error e => (processes, .error e.toInt32)
  | .ok processes =>
    -- the results of previous LSM programs
    if retval ≠ 0 then (processes, .ok retval)
    else (processes, .ok 0)

/-- `task_alloc`, with the map after it. -/
def taskAlloc (processes : Processes) (ctx : TaskAlloc) : Processes × Int32 :=
  let (processes, result) := tryTaskAlloc processes ctx
  match result with
  | .ok ret => (processes, ret)
  | .error ret => (processes, ret)

/-- The calls of the hook, in order. -/
def machine : Machine Processes TaskAlloc Int32 := ⟨taskAlloc⟩

/-! ## One call -/

theorem insertPid_of_fits {m : Processes} {pid : Int32} (errno : Errno) (h : m.Fits pid) :
    insertPid m errno pid = .ok (m.put pid pid) := by
  rw [insertPid, BoundedMap.insert_of_fits pid h]

theorem insertPid_of_not_fits {m : Processes} {pid : Int32} (errno : Errno) (h : ¬ m.Fits pid) :
    insertPid m errno pid = .error errno.val := by
  rw [insertPid, BoundedMap.insert_eq_none.mpr h]

/-- **One call**: with room for the pid it is recorded and the earlier verdict returned, without
room the kernel's error is. -/
theorem taskAlloc_eq (m : Processes) (ctx : TaskAlloc) :
    taskAlloc m ctx =
      if m.Fits ctx.pid then (m.put ctx.pid ctx.pid, ctx.retval) else (m, ctx.errno.asI32) := by
  by_cases hfits : m.Fits ctx.pid
  · rw [if_pos hfits]
    simp only [taskAlloc, tryTaskAlloc, insertPid_of_fits ctx.errno hfits]
    by_cases hret : ctx.retval = 0
    · simp only [hret, ne_eq, not_true_eq_false, if_false]
    · simp only [hret, ne_eq, not_false_eq_true, if_true]
  · rw [if_neg hfits]
    simp only [taskAlloc, tryTaskAlloc, insertPid_of_not_fits ctx.errno hfits]
    rfl

/-- The map after a call. -/
theorem next_eq (m : Processes) (ctx : TaskAlloc) :
    machine.next m ctx = m.put ctx.pid ctx.pid := by
  simp only [Machine.next, machine, taskAlloc_eq]
  split
  · rfl
  · rename_i hfits
    rw [BoundedMap.put_of_not_fits _ hfits]

/-- What a call returns. -/
theorem move_out (m : Processes) (ctx : TaskAlloc) :
    (machine.move m ctx).out = if m.Fits ctx.pid then ctx.retval else ctx.errno.asI32 := by
  simp only [Machine.move, machine, taskAlloc_eq]
  split <;> rfl

/-- A failing map operation is a denial. -/
theorem Errno.asI32_ne_zero (e : Errno) : e.asI32 ≠ 0 := by
  intro h
  have hge := e.ge
  have hle := e.le
  have hval : e.asI32.toInt = e.val.toInt := by
    rw [asI32, Int64.toInt_toInt32]
    exact Int.bmod_eq_of_le (by omega) (by omega)
  rw [h] at hval
  have hzero : (0 : Int32).toInt = 0 := by decide
  omega

/-- **A call returns 0** when it finds room and the programs before have let the task through. -/
theorem move_out_eq_zero {m : Processes} {ctx : TaskAlloc} :
    (machine.move m ctx).out = 0 ↔ m.Fits ctx.pid ∧ ctx.retval = 0 := by
  rw [move_out]
  split
  · rename_i hfits
    exact (and_iff_right hfits).symm
  · rename_i hfits
    exact iff_of_false ctx.errno.asI32_ne_zero fun h => hfits h.1

/-- **A denial by earlier programs stays a denial**, room or not. -/
theorem denied_stays_denied (m : Processes) {ctx : TaskAlloc} (h : ctx.retval ≠ 0) :
    (machine.move m ctx).out ≠ 0 := by
  intro hout
  exact h (move_out_eq_zero.mp hout).2

/-! ## Runs -/

/-- **When the hook only records**: in a run from the empty map, every call returns the verdict it
received iff at every call the pid is already in the map, or there is room for it, or the kernel's
error equals the verdict received. -/
theorem returns_retval_iff (evs : List TaskAlloc) :
    (∀ m ∈ machine.moves .empty evs, m.out = m.act.retval) ↔
      ∀ m ∈ machine.moves .empty evs,
        m.act.pid ∈ m.pre ∨ m.pre.size < 32768 ∨ m.act.retval = m.act.errno.asI32 := by
  refine Machine.forall_moves_congr (I := fun _ => True) trivial (fun _ _ _ => trivial) ?_ evs
  intro m ctx _
  show (machine.move m ctx).out = ctx.retval ↔
    ctx.pid ∈ m ∨ m.size < 32768 ∨ ctx.retval = ctx.errno.asI32
  rw [move_out, ← or_assoc]
  show _ ↔ m.Fits ctx.pid ∨ _
  by_cases hfits : m.Fits ctx.pid
  · simp only [hfits, if_true, true_or]
  · simp only [hfits, if_false, false_or]
    exact eq_comm

/-- The map after a run is the pids, loaded in order. -/
theorem last_eq_load (m : Processes) (evs : List TaskAlloc) :
    machine.last m evs = m.load TaskAlloc.pid TaskAlloc.pid evs := by
  have hnext : machine.next = fun m ctx => m.put ctx.pid ctx.pid := by
    funext m ctx
    exact next_eq m ctx
  rw [Machine.last, BoundedMap.load, hnext]

/-- **A full map denies every new task**: after 32768 different pids, a call with another one
returns the kernel's error, whatever earlier programs said. -/
theorem denies_when_full {evs : List TaskAlloc} (hn : (evs.map TaskAlloc.pid).Nodup)
    (hlen : evs.length = 32768) {ctx : TaskAlloc} (hnew : ctx.pid ∉ evs.map TaskAlloc.pid) :
    (machine.move (machine.last .empty evs) ctx).out = ctx.errno.asI32 := by
  have hempty : (BoundedMap.empty : Processes).size + evs.length ≤ 32768 := by
    rw [BoundedMap.size_empty]
    omega
  obtain ⟨hsize, hacc⟩ := BoundedMap.load_nodup (f := TaskAlloc.pid) (v := TaskAlloc.pid) evs hn
    (fun _ _ => BoundedMap.not_mem_empty _) hempty
  have hfits : ¬ (machine.last .empty evs).Fits ctx.pid := by
    rw [last_eq_load]
    rintro (hmem | hlt)
    · rcases BoundedMap.mem_load.mp hmem with h | ⟨ev, hev, hpid⟩
      · exact BoundedMap.not_mem_empty _ h
      · rw [hacc] at hev
        exact hnew (hpid ▸ List.mem_map_of_mem hev)
    · rw [hsize, BoundedMap.size_empty] at hlt
      omega
  rw [move_out, if_neg hfits]

/-- `E2BIG`, what the kernel returns for a new key in a full hash map. -/
def e2big : Errno := ⟨-7, by decide, by decide⟩

/-- An allowed task. -/
def allowed (pid : Nat) : TaskAlloc := ⟨.ofNat pid, 0, 0, e2big⟩

theorem allowed_pid_inj {a b : Nat} (ha : a ≤ 32769) (hb : b ≤ 32769)
    (h : (allowed a).pid = (allowed b).pid) : a = b := by
  have hint : (Int32.ofNat a).toInt = (Int32.ofNat b).toInt := congrArg Int32.toInt h
  rw [Int32.toInt_ofNat_of_lt (by omega), Int32.toInt_ofNat_of_lt (by omega)] at hint
  omega

/-- **No process can be created any more**: 32768 tasks with the pids 1, …, 32768 and one with the
pid 32769, all allowed by the programs before. -/
theorem denies_allowed_task :
    ¬ ∀ evs : List TaskAlloc, ∀ m ∈ machine.moves .empty evs, m.out = m.act.retval := by
  intro h
  have hout := h ((List.range' 1 32768).map allowed ++ [allowed 32769]) _
    (Machine.move_mem_moves _ (allowed 32769) [])
  rw [denies_when_full] at hout
  · exact Errno.asI32_ne_zero e2big hout
  · rw [List.map_map]
    refine List.Nodup.map_on (fun a ha b hb hab => ?_) List.nodup_range'
    rw [List.mem_range'_1] at ha hb
    exact allowed_pid_inj (by omega) (by omega) hab
  · rw [List.length_map, List.length_range']
  · rw [List.map_map, List.mem_map]
    rintro ⟨a, ha, hab⟩
    rw [List.mem_range'_1] at ha
    have := allowed_pid_inj (by omega) le_rfl hab
    omega

end AyaBook.Myapp
