import Mathlib.Logic.Function.Basic
import AyaBook.Lib.Machine
import AyaBook.Xtask.Workspace

/-!
# What `xtask run` launches after any history of commands

A history is any sequence of source edits, `build-ebpf` and `run`. An eBPF build writes its object
to the path for its target and profile; a userspace build embeds the file its
`include_bytes_aligned!` names, and fails when there is none; files stay until they are
overwritten.

`run` builds the object for its `--bpf-target`, but the binary embeds the `bpfel` one.

* `launches_requested_iff`: **when every run launches the object it asked for**: when every run
  asks for `bpfel`.
-/

namespace AyaBook.Xtask

open AyaBook.Lib

variable {Source : Type}

/-- An eBPF object: the triple, the profile and the sources it was built from. -/
structure Object (Source : Type) where
  triple : String
  prof : String
  source : Source
  deriving DecidableEq, Repr

/-- A file under `target/`: an object, or a userspace binary with the object it embeds. -/
inductive File (Source : Type) where
  | object (o : Object Source)
  | binary (embedded : Object Source)

/-- The sources as they are, and the files built so far. -/
structure World (Source : Type) where
  source : Source
  files : Path → Option (File Source)

/-- A workspace in which nothing was built. -/
def World.fresh (source : Source) : World Source := ⟨source, fun _ => none⟩

/-- Write a file. -/
def World.write (w : World Source) (path : Path) (file : File Source) : World Source :=
  { w with files := Function.update w.files path (some file) }

/-- What a developer does next. -/
inductive Command (Source : Type) where
  | edit (source : Source)
  | buildEbpf (opts : BuildOptions)
  | run (opts : RunOptions)

/-- What comes of it. -/
inductive Report (Source : Type) where
  | done
  | buildFailed
  | spawnFailed
  | launched (commandLine : List String) (embedded : Object Source)
  deriving DecidableEq, Repr

namespace Workspace

variable (x : Workspace)

/-- `build_ebpf`: the object for the target and the profile of the call to `cargo`. -/
def buildEbpf (w : World Source) (opts : BuildOptions) : World Source :=
  let args := buildEbpfArgs opts
  let triple := cargoTriple x.defaultTarget args
  let prof := cargoProfile args
  w.write (x.ebpfPath triple prof) (.object ⟨triple, prof, w.source⟩)

/-- `build`: debug assertions are on exactly without `--release`. -/
def build (w : World Source) (opts : RunOptions) : Option (World Source) :=
  let args := buildArgs opts
  match w.files (x.includedPath (CargoArg.release ∉ args)) with
  | some (.object o) => some (w.write (x.userPath (cargoProfile args)) (.binary o))
  | _ => none

/-- `run`. -/
def run (w : World Source) (opts : RunOptions) : World Source × Report Source :=
  let w := x.buildEbpf w ⟨opts.bpfTarget, opts.release⟩
  match x.build w opts with
  | none => (w, .buildFailed)
  | some w =>
    let binPath := x.binPath opts
    match w.files binPath with
    | some (.binary o) => (w, .launched (commandLine opts ("/".intercalate binPath)) o)
    | _ => (w, .spawnFailed)

/-- The workspace under the developer's commands. -/
def machine : Machine (World Source) (Command Source) (Report Source) where
  step w
    | .edit source => ({ w with source := source }, .done)
    | .buildEbpf opts => (x.buildEbpf w opts, .done)
    | .run opts => x.run w opts

/-- A run launches a binary with the object of its target and profile, from the sources as they
are. -/
def LaunchesRequested (m : Move (World Source) (Command Source) (Report Source)) : Prop :=
  ∀ opts, m.act = .run opts → ∃ commandLine,
    m.out = .launched commandLine ⟨opts.bpfTarget.display, profile opts.release, m.pre.source⟩

end Workspace

/-! ## Files -/

theorem World.files_write_self (w : World Source) (path : Path) (file : File Source) :
    (w.write path file).files path = some file := by
  show Function.update w.files path (some file) path = some file
  rw [Function.update_self]

theorem World.files_write_of_ne (w : World Source) {path q : Path} (file : File Source)
    (h : q ≠ path) : (w.write path file).files q = w.files q := by
  show Function.update w.files path (some file) q = w.files q
  rw [Function.update_of_ne h]

namespace Workspace

variable {x : Workspace}

/-- What `build_ebpf` writes. -/
theorem buildEbpf_eq (w : World Source) (opts : BuildOptions) :
    x.buildEbpf w opts = w.write (x.ebpfPath opts.target.display (profile opts.release))
      (.object ⟨opts.target.display, profile opts.release, w.source⟩) := by
  rw [buildEbpf, cargoTriple_buildEbpfArgs, cargoProfile_buildEbpfArgs]

/-- What `build` needs: the `bpfel` object of the profile. -/
theorem build_eq (hx : x.Consistent) (w : World Source) (opts : RunOptions) :
    x.build w opts =
      match w.files (x.ebpfPath (Architecture.display .bpfEl) (profile opts.release)) with
      | some (.object o) => some (w.write (x.userPath (profile opts.release)) (.binary o))
      | _ => none := by
  have hdebug : decide (CargoArg.release ∉ buildArgs opts) = !opts.release := by
    simp only [decide_not, release_mem_buildArgs, Bool.decide_eq_true]
  rw [build, hdebug, hx.included_eq, cargoProfile_buildArgs]

/-- **What `run` launches**: the `bpfel` object of the profile that is there after the eBPF
build. -/
theorem run_out (hx : x.Consistent) (w : World Source) (opts : RunOptions) :
    (x.run w opts).2 =
      match (x.buildEbpf w ⟨opts.bpfTarget, opts.release⟩).files
        (x.ebpfPath (Architecture.display .bpfEl) (profile opts.release)) with
      | some (.object o) => .launched (commandLine opts ("/".intercalate (x.binPath opts))) o
      | _ => .buildFailed := by
  unfold run
  simp only [build_eq hx]
  cases hfile : (x.buildEbpf w ⟨opts.bpfTarget, opts.release⟩).files
      (x.ebpfPath (Architecture.display .bpfEl) (profile opts.release)) with
  | none => rfl
  | some file =>
    cases file with
    | binary o => rfl
    | object o =>
      simp only
      rw [hx.binPath_eq, World.files_write_self]

/-- A `bpfel` object is where `bpfel` objects go. -/
def Inv (x : Workspace) (w : World Source) : Prop :=
  ∀ prof o, w.files (x.ebpfPath (Architecture.display .bpfEl) prof) = some (.object o) →
    o.triple = Architecture.display .bpfEl

theorem inv_buildEbpf (hx : x.Consistent) {w : World Source} (h : x.Inv w) (opts : BuildOptions) :
    x.Inv (x.buildEbpf w opts) := by
  intro prof o
  rw [buildEbpf_eq]
  by_cases hpath : x.ebpfPath (Architecture.display .bpfEl) prof =
      x.ebpfPath opts.target.display (profile opts.release)
  · rw [hpath, World.files_write_self]
    intro ho
    obtain rfl := File.object.inj (Option.some.inj ho)
    exact (hx.ebpfPath_inj.mp hpath).1.symm
  · rw [World.files_write_of_ne _ _ hpath]
    exact h prof o

theorem inv_run (hx : x.Consistent) {w : World Source} (h : x.Inv w) (opts : RunOptions) :
    x.Inv (x.run w opts).1 := by
  have hebpf := inv_buildEbpf hx h ⟨opts.bpfTarget, opts.release⟩
  unfold run
  simp only [build_eq hx]
  split
  · exact hebpf
  · rename_i w' hbuild
    have hinv : x.Inv w' := by
      split at hbuild
      · obtain rfl := Option.some.inj hbuild
        intro prof o
        rw [World.files_write_of_ne _ _ (hx.ebpfPath_ne_userPath _ _ _)]
        exact hebpf prof o
      · exact absurd hbuild (by simp)
    split
    · exact hinv
    · exact hinv

theorem inv_next (hx : x.Consistent) (w : World Source) (c : Command Source) (h : x.Inv w) :
    x.Inv ((x.machine).next w c) := by
  cases c with
  | edit source => exact h
  | buildEbpf opts => exact inv_buildEbpf hx h opts
  | run opts => exact inv_run hx h opts

/-- **One run** launches what it asked for iff it asked for `bpfel`. -/
theorem launchesRequested_run_iff (hx : x.Consistent) {w : World Source} (h : x.Inv w)
    (opts : RunOptions) : (∃ commandLine, (x.run w opts).2 =
      .launched commandLine ⟨opts.bpfTarget.display, profile opts.release, w.source⟩) ↔
      opts.bpfTarget = .bpfEl := by
  have hebpf := inv_buildEbpf hx h ⟨opts.bpfTarget, opts.release⟩
  rw [run_out hx]
  constructor
  · rintro ⟨cmd, hlaunched⟩
    split at hlaunched
    · rename_i o hfile
      obtain ⟨-, rfl⟩ := Report.launched.inj hlaunched
      exact Architecture.display_injective (hebpf _ _ hfile)
    · exact nomatch hlaunched
  · intro htarget
    rw [buildEbpf_eq, htarget, World.files_write_self]
    exact ⟨_, rfl⟩

end Workspace

open Workspace

/-- **When `run` never launches a stale or foreign object**: in any history, every run launches a
binary with the object of its target and profile, built from the sources as they are, iff every
run asks for `bpfel`. -/
theorem launches_requested_iff (x : Example) (source : Source) (cs : List (Command Source)) :
    (∀ m ∈ x.workspace.machine.moves (.fresh source) cs, LaunchesRequested m) ↔
      ∀ m ∈ x.workspace.machine.moves (.fresh source) cs,
        ∀ opts, m.act = .run opts → opts.bpfTarget = .bpfEl := by
  have hx := x.consistent
  have hfresh : x.workspace.Inv (World.fresh source) := fun _ _ h => nomatch h
  refine forall_congr' fun m => forall_congr' fun hm => forall_congr' fun opts =>
    forall_congr' fun hact => ?_
  have hinv := (Machine.moves_of_invariant hfresh (inv_next hx) hm).1
  have hout : m.out = (x.workspace.run m.pre opts).2 := by
    rw [Machine.move_of_mem hm, hact]
    rfl
  rw [hout]
  exact launchesRequested_run_iff hx hinv opts

/-- A run, then an edit. -/
def runThenEdit : List (Command Nat) := [.run {}, .edit 1]

/-- **A run for `bpfeb` after an edit launches the `bpfel` object of the old sources**, and every
build succeeds. -/
theorem run_launches_stale_object :
    ¬ ∀ (x : Example) (cs : List (Command Nat)),
      (∀ m ∈ x.workspace.machine.moves (.fresh 0) cs, m.out ≠ .buildFailed) →
        ∀ m ∈ x.workspace.machine.moves (.fresh 0) cs, LaunchesRequested m := by
  intro h
  obtain ⟨cmd, hout⟩ := h .xdpDrop (runThenEdit ++ [.run { bpfTarget := .bpfEb }]) (by decide) _
    (Machine.move_mem_moves runThenEdit _ []) _ rfl
  exact absurd (Report.launched.inj hout).2 (by decide)

end AyaBook.Xtask
