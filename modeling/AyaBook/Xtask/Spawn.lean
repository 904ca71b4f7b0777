import AyaBook.Lib.Words
import AyaBook.Xtask.History

/-!
# The process `xtask run` spawns

The runner option is a command with its arguments, `sudo -E` by default, and is to be taken apart
into its words. `run` trims white space of every kind from its ends, and splits the rest at each
single space.

* `command_eq_ok_iff`: `Command::new(…).args(…)` of a list of arguments.
* `splitTerminator_trim_eq_words_iff`: **when the two steps give the words** of a string.
* `spawnsRequested_iff`: **when `run` spawns what it is asked to**.
* `launched_requested`: the same of every launch in any history of commands.
-/

namespace AyaBook.Xtask

open AyaBook.Lib

/-- What `std::process::Command` spawns. -/
structure Process where
  program : String
  args : List String
  deriving DecidableEq, Repr

/-- `Command::new(args.first().expect(…)).args(args.iter().skip(1))`; an error is the panic. -/
def command (args : List String) : Except String Process :=
  match args.head? with
  | some first => .ok ⟨first, args.drop 1⟩
  | none => .error "No first argument"

/-- The process `run` spawns. -/
def Workspace.spawned (x : Workspace) (opts : RunOptions) : Except String Process :=
  command (commandLine opts ("/".intercalate (x.binPath opts)))

/-- The words of a runner. -/
def runnerWords (runner : String) : List String :=
  (words isWhitespace runner.toList).map String.ofList

/-- **What `run` is asked to spawn**: the words of the runner, the binary of the profile, and the
arguments given for it. -/
structure SpawnsRequested (x : Workspace) (opts : RunOptions) : Prop where
  spawns : ∃ process, x.spawned opts = .ok process ∧ process.program :: process.args =
    runnerWords opts.runner ++ ["target/" ++ profile opts.release ++ "/" ++ x.binName] ++
      opts.runArgs
  runner_ne_empty : ∀ arg ∈ runnerArgs opts.runner, arg ≠ ""

/-- Between the words of a runner there is one space each. -/
def SingleSpaced (runner : String) : Prop :=
  (∀ c ∈ trim runner.toList, isWhitespace c = true → c = ' ') ∧
    ¬ [' ', ' '] <:+: trim runner.toList

/-! ## The words -/

/-- **When trimming and splitting gives the words** of a string: when it has no white space but
spaces between them, and no two in a row. -/
theorem splitTerminator_trim_eq_words_iff (s : List Char) :
    splitTerminator ' ' (trim s) = words isWhitespace s ↔
      (∀ c ∈ trim s, isWhitespace c = true → c = ' ') ∧ ¬ [' ', ' '] <:+: trim s := by
  have hspace : isWhitespace ' ' = true := by decide
  have hhead : (trim s).head? ≠ some ' ' := head?_strip_ne hspace
  have hlast : (trim s).getLast? ≠ some ' ' := getLast?_strip_ne hspace
  have hwords : words isWhitespace (trim s) = words isWhitespace s := words_strip s
  rw [← hwords]
  cases htrim : trim s with
  | nil => simp [splitTerminator]
  | cons c t =>
    rw [htrim] at hhead hlast
    have hpieces : splitTerminator ' ' (c :: t) = (c :: t).splitOn ' ' := by
      refine if_neg fun hnil => ?_
      rcases getLast?_splitOn_eq_nil hnil with h | h
      · exact List.cons_ne_nil c t h
      · exact hlast h
    rw [hpieces, splitOn_eq_words_iff hspace, nil_mem_splitOn_iff]
    simp only [List.cons_ne_nil, hhead, hlast, false_or]

theorem runnerArgs_eq_words_iff {runner : String} :
    runnerArgs runner = runnerWords runner ↔ SingleSpaced runner := by
  have hinj : Function.Injective String.ofList := fun _ _ => String.ofList_injective
  rw [runnerArgs, runnerWords, SingleSpaced, ← splitTerminator_trim_eq_words_iff]
  exact (List.map_injective_iff.mpr hinj).eq_iff

/-- A word is not empty. -/
theorem ne_empty_of_mem_runnerWords {runner arg : String} (h : arg ∈ runnerWords runner) :
    arg ≠ "" := by
  obtain ⟨w, hw, rfl⟩ := List.mem_map.mp h
  intro hempty
  rw [← String.ofList_nil] at hempty
  exact (mem_words.mp hw).2 (String.ofList_injective hempty)

/-! ## The process -/

/-- **A command** is its program followed by its arguments. -/
theorem command_eq_ok_iff {args : List String} {process : Process} :
    command args = .ok process ↔ process.program :: process.args = args := by
  cases args with
  | nil => exact iff_of_false (fun h => nomatch h) (List.cons_ne_nil _ _)
  | cons first rest =>
    obtain ⟨program, args⟩ := process
    simp only [command, List.head?_cons, List.drop_one, List.tail_cons, Except.ok.injEq,
      Process.mk.injEq, List.cons.injEq, eq_comm]

/-- `bin_path`, as a string. -/
theorem intercalate_binPath (x : Workspace) (opts : RunOptions) :
    "/".intercalate (x.binPath opts) =
      "target/" ++ profile opts.release ++ "/" ++ x.binName := by
  have htarget : "target" ++ "/" = "target/" := by decide
  rw [Workspace.binPath, String.intercalate_cons_cons, String.intercalate_cons_cons,
    String.intercalate_singleton, ← String.append_assoc, ← String.append_assoc, htarget]
  rfl

namespace Workspace

variable {x : Workspace} {opts : RunOptions}

/-- **What `run` spawns**, for any runner. -/
theorem spawned_eq_ok_iff {process : Process} : x.spawned opts = .ok process ↔
    process.program :: process.args =
      runnerArgs opts.runner ++ ["target/" ++ profile opts.release ++ "/" ++ x.binName] ++
        opts.runArgs := by
  rw [spawned, command_eq_ok_iff, commandLine, intercalate_binPath]

/-- **There is always a first argument**: the panic is out of reach. -/
theorem exists_spawned (x : Workspace) (opts : RunOptions) :
    ∃ process, x.spawned opts = .ok process := by
  obtain ⟨first, rest, hline⟩ := List.exists_cons_of_ne_nil
    (show commandLine opts ("/".intercalate (x.binPath opts)) ≠ [] by simp [commandLine])
  exact ⟨⟨first, rest⟩, command_eq_ok_iff.mpr hline.symm⟩

/-- **The command line of a launch** is what `run` spawns. -/
theorem run_launched {Source : Type} {w : World Source} {line : List String} {o : Object Source}
    (h : (x.run w opts).2 = .launched line o) : command line = x.spawned opts := by
  unfold run at h
  simp only at h
  split at h
  · exact nomatch h
  · split at h
    · rw [← (Report.launched.inj h).1, spawned]
    · exact nomatch h

end Workspace

open Workspace

/-- A runner with single spaces is taken apart as it should be. -/
theorem spawnsRequested_of_singleSpaced (x : Workspace) {opts : RunOptions}
    (h : SingleSpaced opts.runner) : SpawnsRequested x opts := by
  have hwords := runnerArgs_eq_words_iff.mpr h
  obtain ⟨process, hok⟩ := exists_spawned x opts
  refine ⟨⟨process, hok, ?_⟩, fun arg harg => ?_⟩
  · rw [← hwords]
    exact spawned_eq_ok_iff.mp hok
  · rw [hwords] at harg
    exact ne_empty_of_mem_runnerWords harg

/-- **In any history of commands**, a launch by a runner with single spaces is of its words, the
binary and the arguments given for it. -/
theorem launched_requested {Source : Type} (x : Workspace) (source : Source)
    (cs : List (Command Source)) {m : Move (World Source) (Command Source) (Report Source)}
    (hm : m ∈ x.machine.moves (.fresh source) cs) {opts : RunOptions} (hact : m.act = .run opts)
    {line : List String} {o : Object Source} (hout : m.out = .launched line o)
    (hrunner : SingleSpaced opts.runner) :
    ∃ process, command line = .ok process ∧ process.program :: process.args =
      runnerWords opts.runner ++ ["target/" ++ profile opts.release ++ "/" ++ x.binName] ++
        opts.runArgs := by
  rw [Machine.move_of_mem hm, hact] at hout
  rw [run_launched hout]
  exact (spawnsRequested_of_singleSpaced x hrunner).spawns

/-- **When `run` spawns what it is asked to**: in every workspace, for every profile and all
arguments, iff the words of the runner are separated by one space each. -/
theorem spawnsRequested_iff (x : Workspace) (opts : RunOptions) :
    SpawnsRequested x opts ↔ SingleSpaced opts.runner := by
  constructor
  · rintro ⟨⟨process, hok, hline⟩, -⟩
    rw [spawned_eq_ok_iff, hline] at hok
    have hwords := List.append_cancel_right (List.append_cancel_right hok)
    exact runnerArgs_eq_words_iff.mp hwords.symm
  · exact spawnsRequested_of_singleSpaced x

/-- **A second space becomes an argument**: `sudo` is given an empty one before `-E`. -/
theorem spawns_empty_argument :
    ¬ ∀ (x : Example) (opts : RunOptions), SpawnsRequested x.workspace opts := by
  intro h
  have hempty := (h .xdpDrop { runner := "sudo  -E" }).runner_ne_empty
  exact hempty "" (by decide) rfl

end AyaBook.Xtask
