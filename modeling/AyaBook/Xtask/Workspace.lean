import AyaBook.Xtask.Commands

/-!
# The example workspaces and their paths

Three paths must agree in a workspace, and each is written down on its own: where `cargo` puts the
eBPF object (`target-dir` of `<name>-ebpf/.cargo/config.toml`, with the target and the profile of
the call), the path in `include_bytes_aligned!` of the userspace `main.rs`, and the `bin_path` of
`xtask run`. Paths are lists of components, relative to the workspace.

* `Example.consistent`: **in every workspace the included file is the `bpfel` object of the
  profile**, and `bin_path` is what `cargo` writes.
-/

namespace AyaBook.Xtask

/-- A path's components. -/
abbrev Path := List String

/-- A relative path seen from the directory `base`. -/
def resolve (base : Path) : Path → Path
  | [] => base
  | c :: cs => if c = ".." then resolve base.dropLast cs else resolve (base ++ [c]) cs

/-- What the sources of a workspace say about paths. -/
structure Workspace where
  /-- The directory `build_ebpf` calls `cargo` in. -/
  ebpfDir : String
  /-- `target-dir` in its `.cargo/config.toml`. -/
  targetDir : Path
  /-- `target` in the same file. -/
  defaultTarget : String
  /-- `[[bin]]` in its `Cargo.toml`. -/
  ebpfBin : String
  /-- The userspace package. -/
  userDir : String
  /-- Its `[[bin]]`. -/
  userBin : String
  /-- The path in `include_bytes_aligned!` with debug assertions. -/
  includeDebug : Path
  /-- The path in `include_bytes_aligned!` without. -/
  includeRelease : Path
  /-- The last component of `bin_path`. -/
  binName : String

/-- The workspaces follow one template. -/
def Workspace.ofName (name : String) : Workspace where
  ebpfDir := name ++ "-ebpf"
  targetDir := ["..", "target"]
  defaultTarget := "bpfel-unknown-none"
  ebpfBin := name
  userDir := name
  userBin := name
  includeDebug := ["..", "..", "target", "bpfel-unknown-none", "debug", name]
  includeRelease := ["..", "..", "target", "bpfel-unknown-none", "release", name]
  binName := name

/-- The directories under `examples/`. -/
inductive Example where
  | ayaTool
  | cgroupSkbEgress
  | kprobetcp
  | lsmNice
  | tcEgress
  | xdpDrop
  | xdpHello
  | xdpLog
  deriving DecidableEq, Repr

/-- The workspace in a directory; the one in `aya-tool` is named `myapp`. -/
def Example.workspace : Example → Workspace
  | ayaTool => .ofName "myapp"
  | cgroupSkbEgress => .ofName "cgroup-skb-egress"
  | kprobetcp => .ofName "kprobetcp"
  | lsmNice => .ofName "lsm-nice"
  | tcEgress => .ofName "tc-egress"
  | xdpDrop => .ofName "xdp-drop"
  | xdpHello => .ofName "xdp-hello"
  | xdpLog => .ofName "xdp-log"

/-! ## Paths -/

/-- The directory of a profile. -/
def profile (release : Bool) : String := if release then "release" else "debug"

/-- The triple `cargo` builds for: that of its `--target`, or the configured one. -/
def cargoTriple (default : String) (args : List CargoArg) : String :=
  (args.findSome? fun
    | .target triple => some triple
    | _ => none).getD default

/-- The profile `cargo` builds. -/
def cargoProfile (args : List CargoArg) : String := profile (CargoArg.release ∈ args)

namespace Workspace

variable (x : Workspace)

/-- Where `cargo` puts the eBPF object for a triple and a profile. -/
def ebpfPath (triple prof : String) : Path :=
  resolve [x.ebpfDir] x.targetDir ++ [triple, prof, x.ebpfBin]

/-- Where `cargo` puts the userspace binary. -/
def userPath (prof : String) : Path := ["target", prof, x.userBin]

/-- The file the userspace binary embeds; `include_bytes_aligned!` is relative to `main.rs`. -/
def includedPath (debugAssertions : Bool) : Path :=
  resolve [x.userDir, "src"] (if debugAssertions then x.includeDebug else x.includeRelease)

/-- `bin_path` of `run`. -/
def binPath (opts : RunOptions) : Path :=
  let profile := if opts.release then "release" else "debug"
  ["target", profile, x.binName]

/-- The paths of a workspace agree, for `bpfel`. -/
structure Consistent : Prop where
  target_eq : resolve [x.ebpfDir] x.targetDir = ["target"]
  included_eq : ∀ release : Bool,
    x.includedPath (!release) = x.ebpfPath (Architecture.display .bpfEl) (profile release)
  binName_eq : x.binName = x.userBin

end Workspace

/-- **The paths of every example agree.** -/
theorem Example.consistent (x : Example) : x.workspace.Consistent where
  target_eq := by cases x <;> decide
  included_eq := by cases x <;> decide
  binName_eq := by cases x <;> rfl

namespace Workspace.Consistent

variable {x : Workspace}

theorem ebpfPath_eq (h : x.Consistent) (triple prof : String) :
    x.ebpfPath triple prof = ["target", triple, prof, x.ebpfBin] := by
  rw [ebpfPath, h.target_eq]
  rfl

/-- Objects for different targets or profiles are different files. -/
theorem ebpfPath_inj (h : x.Consistent) {t t' p p' : String} :
    x.ebpfPath t p = x.ebpfPath t' p' ↔ t = t' ∧ p = p' := by
  rw [h.ebpfPath_eq, h.ebpfPath_eq]
  simp only [List.cons.injEq, true_and, and_true]

/-- No object is where a binary is. -/
theorem ebpfPath_ne_userPath (h : x.Consistent) (t p p' : String) :
    x.ebpfPath t p ≠ x.userPath p' := by
  intro heq
  rw [h.ebpfPath_eq, userPath] at heq
  exact absurd (congrArg List.length heq) (by simp)

/-- `run` spawns the binary of the profile it built. -/
theorem binPath_eq (h : x.Consistent) (opts : RunOptions) :
    x.binPath opts = x.userPath (profile opts.release) := by
  rw [binPath, userPath, h.binName_eq]
  rfl

end Workspace.Consistent

/-! ## The options in the arguments -/

theorem cargoTriple_buildEbpfArgs (default : String) (opts : BuildOptions) :
    cargoTriple default (buildEbpfArgs opts) = opts.target.display := rfl

theorem cargoProfile_buildEbpfArgs (opts : BuildOptions) :
    cargoProfile (buildEbpfArgs opts) = profile opts.release := by
  rw [cargoProfile, buildEbpfArgs]
  cases opts.release <;> simp

theorem release_mem_buildArgs (opts : RunOptions) :
    CargoArg.release ∈ buildArgs opts ↔ opts.release = true := by
  rw [buildArgs]
  cases opts.release <;> simp

theorem cargoProfile_buildArgs (opts : RunOptions) :
    cargoProfile (buildArgs opts) = profile opts.release := by
  rw [cargoProfile]
  simp only [release_mem_buildArgs, Bool.decide_eq_true]

end AyaBook.Xtask
