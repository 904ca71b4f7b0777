import AyaBook.Userspace
import AyaBook.Xtask.Options
import AyaBook.Xtask.Spawn

/-!
# `xtask` when something fails

Model of `xtask/src/main.rs` and of the failing paths of `build_ebpf.rs`, `run.rs` and
`codegen.rs`. A `cargo` that does not start or does not succeed is a panic, of `expect` or of
`assert!`; the process `run` spawns may fail too, and that is the only error `run` returns. A
failing build writes nothing; a failing `codegen` may leave its file cut. Signals to `xtask` itself
are left out.

* `runWith_cases`: how a `run` can end, and what it leaves.
* `launches_current_iff`: **with failing builds too**, in any history, what is launched embeds the
  object asked for iff every run that launches asks for `bpfel`.
* `exitCode_xtask`: **the exit codes of `main`**, from `Options::parse` on.
* `moves_succeeding`: where nothing fails, this is the workspace of `History`.
* `exitCode_run_main`: **what the exit code of `cargo xtask run` says of the program it ran**.
-/

namespace AyaBook.Xtask

open AyaBook.Lib

/-- How a call of `cargo` ends. -/
inductive Cargo where
  | notStarted
  | failed
  | succeeded
  deriving DecidableEq, Repr

/-- How `main` is stopped: by an error of its command, with the contexts before it; by a panic; or
by an exit within `Options::parse`. -/
inductive Stop where
  | error (chain : List String)
  | panic (message : String)
  | exit (code : Nat)
  deriving DecidableEq, Repr

/-- `.context(text)`. A panic is no `Result`. -/
def context (text : String) : Except Stop Unit → Except Stop Unit
  | .error (.error chain) => .error (.error (text :: chain))
  | result => result

/-- `.status().expect(message)`, then `assert!(status.success())`. -/
def assertSuccess (message : String) : Cargo → Except Stop Unit
  | .notStarted => .error (.panic message)
  | .failed => .error (.panic "assertion failed: status.success()")
  | .succeeded => .ok ()

/-- What a command meets: the eBPF build, the userspace build, and whether the process that `run`
spawns succeeds, if it starts. -/
structure Answers where
  ebpf : Cargo
  user : Cargo
  process : Option Bool

/-- A process that was started, and the object in the binary at `bin_path`. -/
structure Launch (Source : Type) where
  process : Process
  embedded : Option (Object Source)
  deriving DecidableEq, Repr

/-- What comes of a command. -/
structure Ending (Source : Type) where
  launched : Option (Launch Source)
  result : Except Stop Unit

/-- The exit code of `main`: `exit(1)` for an error, the runtime's 101 for a panic. -/
def exitCode : Except Stop Unit → Nat
  | .ok () => 0
  | .error (.error _) => 1
  | .error (.panic _) => 101
  | .error (.exit code) => code

variable {Source : Type}

/-- The object in a file. -/
def File.embedded : File Source → Option (Object Source)
  | .object _ => none
  | .binary o => some o

namespace Workspace

variable (x : Workspace)

/-- `build_ebpf`. -/
def buildEbpfWith (w : World Source) (opts : BuildOptions) (cargo : Cargo) :
    World Source × Except Stop Unit :=
  match assertSuccess "failed to build bpf program" cargo with
  | .ok () => (x.buildEbpf w opts, .ok ())
  | .error stop => (w, .error stop)

/-- `build`. It cannot succeed without the file its `include_bytes_aligned!` names. -/
def buildWith (w : World Source) (opts : RunOptions) (cargo : Cargo) :
    World Source × Except Stop Unit :=
  match cargo, x.build w opts with
  | .succeeded, some w' => (w', .ok ())
  | .succeeded, none => (w, assertSuccess "failed to build userspace" .failed)
  | cargo, _ => (w, assertSuccess "failed to build userspace" cargo)

/-- `run`, from the command line on. -/
def spawn (w : World Source) (opts : RunOptions) (answer : Option Bool) : Ending Source :=
  let binPath := x.binPath opts
  let args := commandLine opts ("/".intercalate binPath)
  match command args with
  | .error message => ⟨none, .error (.panic message)⟩
  | .ok process =>
    match answer with
    | none => ⟨none, .error (.panic "failed to run the command")⟩
    | some success =>
      let launch : Launch Source := ⟨process, (w.files binPath).bind File.embedded⟩
      if success then ⟨some launch, .ok ()⟩
      else ⟨some launch, .error (.error ["Failed to run `" ++ " ".intercalate args ++ "`"])⟩

/-- `run`. -/
def runWith (w : World Source) (opts : RunOptions) (a : Answers) :
    World Source × Ending Source :=
  let (w, result) := x.buildEbpfWith w ⟨opts.bpfTarget, opts.release⟩ a.ebpf
  match context "Error while building eBPF program" result with
  | .error stop => (w, ⟨none, .error stop⟩)
  | .ok () =>
    let (w, result) := x.buildWith w opts a.user
    match context "Error while building userspace application" result with
    | .error stop => (w, ⟨none, .error stop⟩)
    | .ok () => (w, x.spawn w opts a.process)

end Workspace

/-- How `codegen::generate` goes, which rewrites a file of the sources: it does not get to write
it, for a panic of `aya_tool::generate` or an error; it writes a part of it, or all of it. -/
inductive Generated (Source : Type) where
  | panicked (message : String)
  | refused (chain : List String)
  | cut (source : Source) (chain : List String)
  | written (source : Source)

/-- `codegen::generate`. -/
def generate (w : World Source) : Generated Source → World Source × Except Stop Unit
  | .panicked message => (w, .error (.panic message))
  | .refused chain => (w, .error (.error chain))
  | .cut source chain => ({ w with source := source }, .error (.error chain))
  | .written source => ({ w with source := source }, .ok ())

/-- `main`, up to its end. -/
def main (x : Example) (w : World Source) (args : Parsed Args) (a : Answers)
    (g : Generated Source) : World Source × Ending Source :=
  match parse x args with
  | .help => (w, ⟨none, .error (.exit 0)⟩)
  | .usageError => (w, ⟨none, .error (.exit 2)⟩)
  | .options (.buildEbpf opts) =>
    let (w, result) := x.workspace.buildEbpfWith w opts a.ebpf
    (w, ⟨none, result⟩)
  | .options (.run opts) => x.workspace.runWith w opts a
  | .options .codegen =>
    let (w, result) := generate w g
    (w, ⟨none, result⟩)

/-- What a developer does next, and how it goes. -/
inductive Attempt (Source : Type) where
  | edit (source : Source)
  | buildEbpf (opts : BuildOptions) (cargo : Cargo)
  | run (opts : RunOptions) (a : Answers)

namespace Workspace

variable (x : Workspace)

/-- The workspace under the developer's commands, which may fail. -/
def attempts : Machine (World Source) (Attempt Source) (Ending Source) where
  step w
    | .edit source => ({ w with source := source }, ⟨none, .ok ()⟩)
    | .buildEbpf opts cargo =>
      let (w, result) := x.buildEbpfWith w opts cargo
      (w, ⟨none, result⟩)
    | .run opts a => x.runWith w opts a

/-! ## One command -/

variable {x}

theorem buildEbpfWith_cases (w : World Source) (opts : BuildOptions) (cargo : Cargo) :
    (cargo = .succeeded ∧ x.buildEbpfWith w opts cargo = (x.buildEbpf w opts, .ok ())) ∨
    (cargo ≠ .succeeded ∧
      ∃ message, x.buildEbpfWith w opts cargo = (w, .error (.panic message))) := by
  cases cargo with
  | succeeded => exact Or.inl ⟨rfl, rfl⟩
  | notStarted => exact Or.inr ⟨by decide, _, rfl⟩
  | failed => exact Or.inr ⟨by decide, _, rfl⟩

theorem buildWith_cases (w : World Source) (opts : RunOptions) (cargo : Cargo) :
    (∃ w', cargo = .succeeded ∧ x.build w opts = some w' ∧
      x.buildWith w opts cargo = (w', .ok ())) ∨
    ((cargo = .succeeded → x.build w opts = none) ∧
      ∃ message, x.buildWith w opts cargo = (w, .error (.panic message))) := by
  unfold buildWith
  cases cargo with
  | succeeded =>
    cases hbuild : x.build w opts with
    | some w' => exact Or.inl ⟨w', rfl, rfl, rfl⟩
    | none => exact Or.inr ⟨fun _ => rfl, _, rfl⟩
  | notStarted => exact Or.inr ⟨(fun h => nomatch h), _, rfl⟩
  | failed => exact Or.inr ⟨(fun h => nomatch h), _, rfl⟩

/-- **How a `run` goes**: the eBPF build panics and nothing has changed; or the userspace build
panics and only the object is new; or both succeed and the command line is spawned. -/
theorem runWith_cases (w : World Source) (opts : RunOptions) (a : Answers) :
    (a.ebpf ≠ .succeeded ∧ ∃ message, x.runWith w opts a = (w, ⟨none, .error (.panic message)⟩)) ∨
    (a.ebpf = .succeeded ∧ ∃ message, x.runWith w opts a =
      (x.buildEbpf w ⟨opts.bpfTarget, opts.release⟩, ⟨none, .error (.panic message)⟩)) ∨
    ∃ w', a.ebpf = .succeeded ∧ a.user = .succeeded ∧
      x.build (x.buildEbpf w ⟨opts.bpfTarget, opts.release⟩) opts = some w' ∧
      x.runWith w opts a = (w', x.spawn w' opts a.process) := by
  unfold runWith
  rcases buildEbpfWith_cases (x := x) w ⟨opts.bpfTarget, opts.release⟩ a.ebpf with
    ⟨hebpf, heq⟩ | ⟨hebpf, message, heq⟩
  · rw [heq]
    rcases buildWith_cases (x := x) (x.buildEbpf w ⟨opts.bpfTarget, opts.release⟩) opts a.user with
      ⟨w', huser, hbuild, heq'⟩ | ⟨-, message, heq'⟩
    · refine Or.inr (Or.inr ⟨w', hebpf, huser, hbuild, ?_⟩)
      simp only [context, heq']
    · refine Or.inr (Or.inl ⟨hebpf, message, ?_⟩)
      simp only [context, heq']
  · rw [heq]
    exact Or.inl ⟨hebpf, message, rfl⟩

/-- `run` when both builds succeed is the `run` of `History`. -/
theorem run_of_build (hx : x.Consistent) {w w' : World Source} {opts : RunOptions}
    (hbuild : x.build (x.buildEbpf w ⟨opts.bpfTarget, opts.release⟩) opts = some w') :
    ∃ o, w'.files (x.binPath opts) = some (.binary o) ∧
      x.run w opts = (w', .launched (commandLine opts ("/".intercalate (x.binPath opts))) o) := by
  have hbuilt := hbuild
  rw [build_eq hx] at hbuilt
  split at hbuilt
  · rename_i o _
    obtain rfl := Option.some.inj hbuilt
    have hfile : (World.write (x.buildEbpf w ⟨opts.bpfTarget, opts.release⟩)
        (x.userPath (profile opts.release)) (.binary o)).files (x.binPath opts) =
          some (.binary o) := by
      rw [hx.binPath_eq, World.files_write_self]
    refine ⟨o, hfile, ?_⟩
    unfold run
    simp only [hbuild, hfile]
  · exact nomatch hbuilt

theorem run_of_build_none {w : World Source} {opts : RunOptions}
    (hbuild : x.build (x.buildEbpf w ⟨opts.bpfTarget, opts.release⟩) opts = none) :
    x.run w opts = (x.buildEbpf w ⟨opts.bpfTarget, opts.release⟩, .buildFailed) := by
  unfold run
  simp only [hbuild]

/-- What is spawned, once there is a binary. -/
theorem spawn_eq {w : World Source} {opts : RunOptions} {o : Object Source} {process : Process}
    (hfile : w.files (x.binPath opts) = some (.binary o))
    (hprocess : x.spawned opts = .ok process) (answer : Option Bool) :
    x.spawn w opts answer =
      match answer with
      | none => ⟨none, .error (.panic "failed to run the command")⟩
      | some true => ⟨some ⟨process, some o⟩, .ok ()⟩
      | some false => ⟨some ⟨process, some o⟩, .error (.error ["Failed to run `" ++
          " ".intercalate (commandLine opts ("/".intercalate (x.binPath opts))) ++ "`"])⟩ := by
  have hcommand : command (commandLine opts ("/".intercalate (x.binPath opts))) = .ok process :=
    hprocess
  simp only [spawn, hcommand, hfile]
  cases answer with
  | none => rfl
  | some success => cases success <;> rfl

/-- **Whatever fails, `run` launches only what the `run` of `History` launches.** -/
theorem launched_runWith (hx : x.Consistent) {w : World Source} {opts : RunOptions} {a : Answers}
    {l : Launch Source} (h : (x.runWith w opts a).2.launched = some l) :
    ∃ o line, l.embedded = some o ∧ command line = .ok l.process ∧
      (x.run w opts).2 = .launched line o := by
  rcases runWith_cases (x := x) w opts a with
    ⟨-, message, heq⟩ | ⟨-, message, heq⟩ | ⟨w', -, -, hbuild, heq⟩
  · rw [heq] at h
    exact nomatch h
  · rw [heq] at h
    exact nomatch h
  · obtain ⟨o, hfile, hrun⟩ := run_of_build hx hbuild
    obtain ⟨process, hprocess⟩ := exists_spawned x opts
    rw [heq] at h
    have hlaunched : (x.spawn w' opts a.process).launched = some l := h
    rw [spawn_eq hfile hprocess] at hlaunched
    refine ⟨o, commandLine opts ("/".intercalate (x.binPath opts)), ?_, ?_, by rw [hrun]⟩
    · split at hlaunched
      · exact nomatch hlaunched
      · rw [← Option.some.inj hlaunched]
      · rw [← Option.some.inj hlaunched]
    · have hl : l.process = process := by
        split at hlaunched
        · exact nomatch hlaunched
        · rw [← Option.some.inj hlaunched]
        · rw [← Option.some.inj hlaunched]
      rw [hl]
      exact hprocess

/-! ## Histories -/

theorem inv_buildEbpfWith (hx : x.Consistent) {w : World Source} (h : x.Inv w)
    (opts : BuildOptions) (cargo : Cargo) : x.Inv (x.buildEbpfWith w opts cargo).1 := by
  rcases buildEbpfWith_cases (x := x) w opts cargo with ⟨-, heq⟩ | ⟨-, message, heq⟩
  · rw [heq]
    exact inv_buildEbpf hx h opts
  · rw [heq]
    exact h

theorem inv_runWith (hx : x.Consistent) {w : World Source} (h : x.Inv w) (opts : RunOptions)
    (a : Answers) : x.Inv (x.runWith w opts a).1 := by
  rcases runWith_cases (x := x) w opts a with
    ⟨-, message, heq⟩ | ⟨-, message, heq⟩ | ⟨w', -, -, hbuild, heq⟩
  · rw [heq]
    exact h
  · rw [heq]
    exact inv_buildEbpf hx h _
  · obtain ⟨o, -, hrun⟩ := run_of_build hx hbuild
    have hinv := inv_run hx h opts
    rw [hrun] at hinv
    rw [heq]
    exact hinv

theorem inv_attempts_next (hx : x.Consistent) (w : World Source) (c : Attempt Source)
    (h : x.Inv w) : x.Inv (x.attempts.next w c) := by
  cases c with
  | edit source => exact h
  | buildEbpf opts cargo => exact inv_buildEbpfWith hx h opts cargo
  | run opts a => exact inv_runWith hx h opts a

end Workspace

open Workspace

/-- What is launched embeds the object asked for, from the sources as they are. -/
def LaunchesCurrent (m : Move (World Source) (Attempt Source) (Ending Source)) : Prop :=
  ∀ opts a l, m.act = .run opts a → m.out.launched = some l →
    l.embedded = some ⟨opts.bpfTarget.display, profile opts.release, m.pre.source⟩

/-- **When nothing stale or foreign is launched, though builds may fail**: in any history of
edits, builds and runs, each of which may fail in any of its parts, every launch is of the object
that was asked for, built from the sources as they are, iff every run that launches asks for
`bpfel`. -/
theorem launches_current_iff (x : Example) (source : Source) (cs : List (Attempt Source)) :
    (∀ m ∈ x.workspace.attempts.moves (.fresh source) cs, LaunchesCurrent m) ↔
      ∀ m ∈ x.workspace.attempts.moves (.fresh source) cs, ∀ opts a, m.act = .run opts a →
        m.out.launched.isSome = true → opts.bpfTarget = .bpfEl := by
  have hx := x.consistent
  have hfresh : x.workspace.Inv (World.fresh source) := fun _ _ h => nomatch h
  refine forall_congr' fun m => forall_congr' fun hm => ?_
  have hinv := (Machine.moves_of_invariant hfresh (inv_attempts_next hx) hm).1
  have hout : ∀ opts a, m.act = .run opts a → m.out = (x.workspace.runWith m.pre opts a).2 := by
    intro opts a hact
    rw [Machine.move_of_mem hm, hact]
    rfl
  constructor
  · intro h opts a hact hsome
    obtain ⟨l, hl⟩ := Option.isSome_iff_exists.mp hsome
    have hembedded := h opts a l hact hl
    rw [hout opts a hact] at hl
    obtain ⟨o, line, ho, -, hrun⟩ := launched_runWith hx hl
    obtain rfl := Option.some.inj (ho.symm.trans hembedded)
    exact (launchesRequested_run_iff hx hinv opts).mp ⟨line, hrun⟩
  · intro h opts a l hact hl
    have htarget := h opts a hact (by rw [hl]; rfl)
    rw [hout opts a hact] at hl
    obtain ⟨o, line, ho, -, hrun⟩ := launched_runWith hx hl
    obtain ⟨line', hrequested⟩ := (launchesRequested_run_iff hx hinv opts).mpr htarget
    rw [hrun] at hrequested
    rw [ho, (Report.launched.inj hrequested).2]

/-! ## Exit codes -/

/-- What `run` prints of a process that failed. -/
def failedToRun (x : Example) (opts : RunOptions) : List String :=
  ["Failed to run `" ++
    " ".intercalate (commandLine opts ("/".intercalate (x.workspace.binPath opts))) ++ "`"]

/-- **How a `run` ends**: a panic before anything was launched, or as the launched process did. -/
theorem ending_cases (x : Example) (w : World Source) (opts : RunOptions) (a : Answers) :
    let ending := (x.workspace.runWith w opts a).2
    (ending.launched = none ∧ ∃ message, ending.result = .error (.panic message)) ∨
    (ending.launched.isSome = true ∧
      ((a.process = some true ∧ ending.result = .ok ()) ∨
        (a.process = some false ∧ ending.result = .error (.error (failedToRun x opts))))) := by
  rcases runWith_cases (x := x.workspace) w opts a with
    ⟨-, message, heq⟩ | ⟨-, message, heq⟩ | ⟨w', -, -, hbuild, heq⟩
  · rw [heq]
    exact Or.inl ⟨rfl, message, rfl⟩
  · rw [heq]
    exact Or.inl ⟨rfl, message, rfl⟩
  · obtain ⟨o, hfile, -⟩ := run_of_build x.consistent hbuild
    obtain ⟨process, hprocess⟩ := exists_spawned x.workspace opts
    rw [heq]
    simp only [spawn_eq hfile hprocess]
    cases a.process with
    | none => exact Or.inl ⟨rfl, _, rfl⟩
    | some success =>
      cases success with
      | true => exact Or.inr ⟨rfl, Or.inl ⟨rfl, rfl⟩⟩
      | false => exact Or.inr ⟨rfl, Or.inr ⟨rfl, rfl⟩⟩

/-- **The exit code of `run`**, whatever fails. Neither of its contexts is seen. -/
theorem exitCode_runWith (x : Example) (w : World Source) (opts : RunOptions) (a : Answers) :
    let ending := (x.workspace.runWith w opts a).2
    (exitCode ending.result = 0 ↔ ending.launched.isSome = true ∧ a.process = some true) ∧
    (exitCode ending.result = 1 ↔ ending.launched.isSome = true ∧ a.process = some false) ∧
    (exitCode ending.result = 101 ↔ ending.launched = none) ∧
    exitCode ending.result ≠ 2 ∧
    ∀ chain, ending.result = .error (.error chain) → chain = failedToRun x opts := by
  intro ending
  rcases ending_cases x w opts a with
    ⟨hnone, message, hresult⟩ | ⟨hsome, ⟨hprocess, hresult⟩ | ⟨hprocess, hresult⟩⟩
  · have hnone : ending.launched = none := hnone
    have hresult : ending.result = .error (.panic message) := hresult
    simp [hnone, hresult, exitCode]
  · have hsome : ending.launched.isSome = true := hsome
    have hresult : ending.result = .ok () := hresult
    simp [hsome, hresult, hprocess, exitCode, Option.isSome_iff_ne_none.mp hsome]
  · have hsome : ending.launched.isSome = true := hsome
    have hresult : ending.result = .error (.error (failedToRun x opts)) := hresult
    simp [hsome, hresult, hprocess, exitCode, Option.isSome_iff_ne_none.mp hsome, eq_comm]

theorem exitCode_buildEbpfWith (x : Workspace) (w : World Source) (opts : BuildOptions)
    (cargo : Cargo) :
    exitCode (x.buildEbpfWith w opts cargo).2 = if cargo = .succeeded then 0 else 101 := by
  cases cargo <;> rfl

/-- **The exit code of `xtask`**, whatever the arguments are and whatever fails.

* 0: help was asked for, or the eBPF build succeeded, or `run` launched a process that succeeded,
  or `codegen` wrote its file;
* 1: `run` launched a process that failed, or `codegen` met an error;
* 2: the arguments are not those of a command, or name no target;
* 101: the eBPF build did not succeed, or `run` launched nothing, or `codegen` panicked.

Only a `run` launches anything, and the only error it prints is the command line that failed. -/
theorem exitCode_xtask (x : Example) (w : World Source) (args : Parsed Args) (a : Answers)
    (g : Generated Source) :
    let ending := (main x w args a g).2
    (exitCode ending.result = 0 ↔ parse x args = .help ∨
      (∃ opts, parse x args = .options (.buildEbpf opts) ∧ a.ebpf = .succeeded) ∨
      (∃ opts, parse x args = .options (.run opts) ∧ ending.launched.isSome = true ∧
        a.process = some true) ∨
      (parse x args = .options .codegen ∧ ∃ source, g = .written source)) ∧
    (exitCode ending.result = 1 ↔
      (∃ opts, parse x args = .options (.run opts) ∧ ending.launched.isSome = true ∧
        a.process = some false) ∨
      (parse x args = .options .codegen ∧
        ∃ chain, g = .refused chain ∨ ∃ source, g = .cut source chain)) ∧
    (exitCode ending.result = 2 ↔ parse x args = .usageError) ∧
    (exitCode ending.result = 101 ↔
      (∃ opts, parse x args = .options (.buildEbpf opts) ∧ a.ebpf ≠ .succeeded) ∨
      (∃ opts, parse x args = .options (.run opts) ∧ ending.launched = none) ∨
      (parse x args = .options .codegen ∧ ∃ message, g = .panicked message)) ∧
    (ending.launched.isSome = true → ∃ opts, parse x args = .options (.run opts)) ∧
    ∀ opts chain, parse x args = .options (.run opts) →
      ending.result = .error (.error chain) → chain = failedToRun x opts := by
  intro ending
  cases h : parse x args with
  | help =>
    have hending : ending = ⟨none, .error (.exit 0)⟩ := by simp only [ending, main, h]
    simp [hending, exitCode]
  | usageError =>
    have hending : ending = ⟨none, .error (.exit 2)⟩ := by simp only [ending, main, h]
    simp [hending, exitCode]
  | options c =>
    cases c with
    | buildEbpf opts =>
      have hending : ending = ⟨none, (x.workspace.buildEbpfWith w opts a.ebpf).2⟩ := by
        simp only [ending, main, h]
      rw [hending, exitCode_buildEbpfWith]
      by_cases hcargo : a.ebpf = .succeeded <;> simp [hcargo]
    | run opts =>
      have hending : ending = (x.workspace.runWith w opts a).2 := by simp only [ending, main, h]
      obtain ⟨h0, h1, h101, h2, hchain⟩ := exitCode_runWith x w opts a
      rw [← hending] at h0 h1 h101 h2 hchain
      have hopts : ∀ p : Prop, (∃ opts', Parsed.options (Subcommand.run opts) =
          .options (.run opts') ∧ p) ↔ p := by simp
      simp only [h0, h1, h101, h2, hopts]
      refine ⟨by simp, by simp, by simp, by simp, fun _ => ⟨opts, rfl⟩, ?_⟩
      rintro _ chain ⟨rfl⟩ hresult
      exact hchain chain hresult
    | codegen =>
      have hending : ending = ⟨none, (generate w g).2⟩ := by simp only [ending, main, h]
      rw [hending]
      cases g <;> simp [generate, exitCode]

/-! ## Where nothing fails -/

/-- A command that goes well. -/
def succeeding : Command Source → Attempt Source
  | .edit source => .edit source
  | .buildEbpf opts => .buildEbpf opts .succeeded
  | .run opts => .run opts ⟨.succeeded, .succeeded, some true⟩

/-- An ending is what a report says. -/
def Agrees : Report Source → Ending Source → Prop
  | .done, ending => ending = ⟨none, .ok ()⟩
  | .buildFailed, ending => ∃ message, ending = ⟨none, .error (.panic message)⟩
  | .spawnFailed, _ => False
  | .launched line o, ending =>
    ∃ process, command line = .ok process ∧ ending = ⟨some ⟨process, some o⟩, .ok ()⟩

/-- One command that goes well. -/
theorem step_succeeding {x : Workspace} (hx : x.Consistent) (w : World Source)
    (c : Command Source) :
    x.attempts.next w (succeeding c) = x.machine.next w c ∧
      Agrees (x.machine.move w c).out (x.attempts.move w (succeeding c)).out := by
  cases c with
  | edit source => exact ⟨rfl, rfl⟩
  | buildEbpf opts => exact ⟨rfl, rfl⟩
  | run opts =>
    show (x.runWith w opts _).1 = (x.run w opts).1 ∧
      Agrees (x.run w opts).2 (x.runWith w opts _).2
    cases hbuild : x.build (x.buildEbpf w ⟨opts.bpfTarget, opts.release⟩) opts with
    | none =>
      rw [run_of_build_none hbuild]
      rcases runWith_cases (x := x) w opts ⟨.succeeded, .succeeded, some true⟩ with
        ⟨hfailed, -⟩ | ⟨-, message, heq⟩ | ⟨w', -, -, hsome, -⟩
      · exact absurd rfl hfailed
      · rw [heq]
        exact ⟨rfl, message, rfl⟩
      · rw [hbuild] at hsome
        exact nomatch hsome
    | some w' =>
      obtain ⟨o, hfile, hrun⟩ := run_of_build hx hbuild
      obtain ⟨process, hprocess⟩ := exists_spawned x opts
      have hwith : x.runWith w opts ⟨.succeeded, .succeeded, some true⟩ =
          (w', ⟨some ⟨process, some o⟩, .ok ()⟩) := by
        simp only [runWith, buildEbpfWith, assertSuccess, context, buildWith, hbuild,
          spawn_eq hfile hprocess]
      rw [hrun, hwith]
      exact ⟨rfl, process, hprocess, rfl⟩

/-- **Where nothing fails**, the commands leave the same files and launch the same processes as
those of `History`. -/
theorem moves_succeeding {x : Workspace} (hx : x.Consistent) (w : World Source)
    (cs : List (Command Source)) :
    x.attempts.last w (cs.map succeeding) = x.machine.last w cs ∧
      List.Forall₂ (fun m m' => m.pre = m'.pre ∧ m'.act = succeeding m.act ∧ Agrees m.out m'.out)
        (x.machine.moves w cs) (x.attempts.moves w (cs.map succeeding)) := by
  induction cs generalizing w with
  | nil => exact ⟨rfl, List.Forall₂.nil⟩
  | cons c cs ih =>
    obtain ⟨hnext, hagrees⟩ := step_succeeding hx w c
    obtain ⟨hlast, hmoves⟩ := ih (x.machine.next w c)
    refine ⟨?_, List.Forall₂.cons ⟨rfl, rfl, hagrees⟩ ?_⟩
    · show x.attempts.last (x.attempts.next w (succeeding c)) _ = _
      rw [hnext]
      exact hlast
    · rw [hnext]
      exact hmoves

/-! ## The program that was run -/

/-- The arguments that are parsed to these options. -/
def RunOptions.args (opts : RunOptions) : Args :=
  .run opts.bpfTarget.display opts.release opts.runner opts.runArgs

theorem parse_args (x : Example) (opts : RunOptions) :
    parse x (.options opts.args) = .options (.run opts) :=
  parse_run_iff.mpr ⟨opts.bpfTarget, rfl, rfl⟩

open Userspace in
/-- **What `cargo xtask run` says of the program.** With a runner that passes on the arguments and
the exit code, it exits with 0 iff it launched the program and the program made every call of its
`main`, up to the wait for Ctrl-C; or is the one of `aya-tool` and did not panic; or was asked for
its help. -/
theorem exitCode_run_main (x : Example) (w : World Source) (opts : RunOptions) (ebpf user : Cargo)
    (g : Generated Source) (clap : List String → Parsed String) (cpus : List Nat)
    (sys : Call → Bool) :
    let parsed := clap opts.runArgs
    let out := Userspace.main cpus (Userspace.ebpf x) sys parsed x
    let ending := (main x w (.options opts.args)
      ⟨ebpf, user, some (Userspace.exitCode x out.result = 0)⟩ g).2
    exitCode ending.result = 0 ↔ ending.launched.isSome = true ∧
      ((∃ opt, parseOpt x parsed = .ok opt ∧ out = ⟨calls cpus opt x, .ok ()⟩) ∨
        (x = .ayaTool ∧ ∀ message, out.result ≠ .error (.panic message)) ∨
        (parses x = true ∧ parsed = .help)) := by
  intro parsed out ending
  have hending : ending = (x.workspace.runWith w opts
      ⟨ebpf, user, some (Userspace.exitCode x out.result = 0)⟩).2 := by
    simp only [ending, main, parse_args]
  obtain ⟨h0, -⟩ := exitCode_runWith x w opts
    ⟨ebpf, user, some (Userspace.exitCode x out.result = 0)⟩
  have hzero : Userspace.exitCode x out.result = 0 ↔ _ := exitCode_eq_zero_iff cpus sys parsed x
  rw [hending, h0, ← hzero, Option.some.injEq, decide_eq_true_eq]

end AyaBook.Xtask
