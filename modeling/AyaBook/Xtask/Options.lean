import AyaBook.Xtask.Workspace

/-!
# Parsing the command line

`Parser::parse`, the first statement of `xtask` and of six of the programs it runs. It either
returns the options or ends the process on its own: with 0 after a help that was asked for, with 2
after a usage error.

How the arguments are grouped is up to `clap`; what `xtask` adds is its own conversion of a target,
`Architecture::from_str`, whose error is a usage error to `clap`.

* `parse_buildEbpf_iff`, `parse_run_iff`: a command gets its target iff it was spelled out in full.
-/

namespace AyaBook

/-- What comes of `Parser::parse`. -/
inductive Parsed (Opts : Type) where
  | options (opts : Opts)
  | help
  | usageError
  deriving DecidableEq, Repr

namespace Xtask

/-- The arguments of `xtask` as `clap` groups them, defaults filled in, before a target is
converted. -/
inductive Args where
  | buildEbpf (target : String) (release : Bool)
  | run (bpfTarget : String) (release : Bool) (runner : String) (runArgs : List String)
  | codegen
  deriving DecidableEq, Repr

/-- `enum Command`. `Codegen` is in `cgroup-skb-egress` only. -/
inductive Subcommand where
  | buildEbpf (opts : BuildOptions)
  | run (opts : RunOptions)
  | codegen
  deriving DecidableEq, Repr

/-- The value of a target option. -/
def parseTarget (s : String) (command : Architecture → Subcommand) : Parsed Subcommand :=
  match Architecture.fromStr s with
  | .ok target => .options (command target)
  | .error _ => .usageError

/-- `Options::parse`, with what `clap` makes of the arguments. -/
def parse (x : Example) : Parsed Args → Parsed Subcommand
  | .options (.buildEbpf target release) =>
    parseTarget target fun target => .buildEbpf ⟨target, release⟩
  | .options (.run bpfTarget release runner runArgs) =>
    parseTarget bpfTarget fun bpfTarget => .run ⟨bpfTarget, release, runner, runArgs⟩
  | .options .codegen => if x = .cgroupSkbEgress then .options .codegen else .usageError
  | .help => .help
  | .usageError => .usageError

theorem parseTarget_eq_options_iff {s : String} {command : Architecture → Subcommand}
    {c : Subcommand} :
    parseTarget s command = .options c ↔ ∃ a : Architecture, s = a.display ∧ command a = c := by
  unfold parseTarget
  cases h : Architecture.fromStr s with
  | error e =>
    refine iff_of_false (fun h => nomatch h) ?_
    rintro ⟨a, hs, -⟩
    rw [Architecture.fromStr_eq_ok_iff.mpr hs] at h
    exact nomatch h
  | ok a =>
    have hs := Architecture.fromStr_eq_ok_iff.mp h
    rw [Parsed.options.injEq]
    refine ⟨fun hc => ⟨a, hs, hc⟩, ?_⟩
    rintro ⟨b, hs', rfl⟩
    rw [Architecture.display_injective (hs.symm.trans hs')]

/-- **A build is parsed** iff its target is one of the two names. -/
theorem parse_buildEbpf_iff {x : Example} {target : String} {release : Bool} {c : Subcommand} :
    parse x (.options (.buildEbpf target release)) = .options c ↔
      ∃ a : Architecture, target = a.display ∧ c = .buildEbpf ⟨a, release⟩ := by
  rw [parse, parseTarget_eq_options_iff]
  simp only [eq_comm]

/-- **A run is parsed** iff its target is one of the two names. -/
theorem parse_run_iff {x : Example} {bpfTarget runner : String} {release : Bool}
    {runArgs : List String} {c : Subcommand} :
    parse x (.options (.run bpfTarget release runner runArgs)) = .options c ↔
      ∃ a : Architecture, bpfTarget = a.display ∧ c = .run ⟨a, release, runner, runArgs⟩ := by
  rw [parse, parseTarget_eq_options_iff]
  simp only [eq_comm]

end Xtask

end AyaBook
