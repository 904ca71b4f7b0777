import Mathlib.Data.List.DropRight

/-!
# The `xtask` commands

Model of `xtask/src/build_ebpf.rs` and `xtask/src/run.rs`, which are the same in all workspaces but
for the names in them: the options, the arguments given to `cargo`, and the command line `run`
spawns.
-/

namespace AyaBook.Xtask

/-- `Architecture`. -/
inductive Architecture where
  | bpfEl
  | bpfEb
  deriving DecidableEq, Repr

namespace Architecture

/-- `Display`. -/
def display : Architecture → String
  | bpfEl => "bpfel-unknown-none"
  | bpfEb => "bpfeb-unknown-none"

/-- `FromStr`. -/
def fromStr (s : String) : Except String Architecture :=
  if s = "bpfel-unknown-none" then .ok bpfEl
  else if s = "bpfeb-unknown-none" then .ok bpfEb
  else .error "invalid target"

theorem display_injective : Function.Injective display := by
  intro a b h
  revert h
  cases a <;> cases b <;> decide

/-- **The two are inverse**: what is accepted is exactly what is displayed. -/
theorem fromStr_eq_ok_iff {s : String} {a : Architecture} :
    fromStr s = .ok a ↔ s = a.display := by
  unfold fromStr
  split
  · rename_i h
    subst h
    cases a <;> decide
  · rename_i hel
    split
    · rename_i h
      subst h
      cases a <;> decide
    · rename_i heb
      cases a with
      | bpfEl => simp [display, hel]
      | bpfEb => simp [display, heb]

end Architecture

/-- `build_ebpf::Options`, with the defaults of its command line. -/
structure BuildOptions where
  target : Architecture := .bpfEl
  release : Bool := false
  deriving DecidableEq, Repr

/-- `run::Options`, with the defaults of its command line. -/
structure RunOptions where
  bpfTarget : Architecture := .bpfEl
  release : Bool := false
  runner : String := "sudo -E"
  runArgs : List String := []
  deriving DecidableEq, Repr

/-! ## Calls of `cargo` -/

/-- The arguments the commands give to `cargo`: `build`, `--target=…`, `-Z …`, `--release`. -/
inductive CargoArg where
  | build
  | target (triple : String)
  | unstable (flag : String)
  | release
  deriving DecidableEq, Repr

/-- The arguments of `build_ebpf`. -/
def buildEbpfArgs (opts : BuildOptions) : List CargoArg :=
  [.build, .target opts.target.display, .unstable "build-std=core"] ++
    if opts.release then [.release] else []

/-- The arguments of `build`. -/
def buildArgs (opts : RunOptions) : List CargoArg :=
  .build :: if opts.release then [.release] else []

/-! ## The command line of `run` -/

/-- The characters `str::trim` removes: Unicode's `White_Space`. -/
def isWhitespace (c : Char) : Bool :=
  (0x09 ≤ c.toNat ∧ c.toNat ≤ 0x0d) ∨ c.toNat ∈ [0x20, 0x85, 0xa0, 0x1680] ∨
    (0x2000 ≤ c.toNat ∧ c.toNat ≤ 0x200a) ∨ c.toNat ∈ [0x2028, 0x2029, 0x202f, 0x205f, 0x3000]

/-- `str::trim`. -/
def trim (s : List Char) : List Char := (s.dropWhile isWhitespace).rdropWhile isWhitespace

/-- `str::split_terminator`: the pieces between the separators, less an empty last one. -/
def splitTerminator (sep : Char) (s : List Char) : List (List Char) :=
  let pieces := s.splitOn sep
  if pieces.getLast? = some [] then pieces.dropLast else pieces

/-- The words `run` takes from its runner option. -/
def runnerArgs (runner : String) : List String :=
  (splitTerminator ' ' (trim runner.toList)).map String.ofList

/-- The command line `run` spawns, program first. -/
def commandLine (opts : RunOptions) (binPath : String) : List String :=
  runnerArgs opts.runner ++ [binPath] ++ opts.runArgs

example : commandLine { runArgs := ["--iface", "lo"] } "target/debug/xdp-drop" =
    ["sudo", "-E", "target/debug/xdp-drop", "--iface", "lo"] := by decide

end AyaBook.Xtask
