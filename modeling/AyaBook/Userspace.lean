import AyaBook.Lifecycle
import AyaBook.Lib.Traced
import AyaBook.Xtask.Options

/-!
# The userspace programs

Model of `main` in the userspace crate of every example, from `Opt::parse` to the exit code. Six
examples parse their arguments first, and may end there. From then on a `main` is its list of calls
in source order, with the names it asks the loaded object for. A name is looked up in the object;
everything else is answered by the system.

A `?` ends `main` with an error, an `unwrap` or an `expect` with a panic. The result of
`qdisc_add_clsact` is not looked at, and most examples only warn when their logger does not start.
`main` of `aya-tool` prints its error and returns. The runtime of `#[tokio::main]` is taken to
start; its macro panics before the first statement if it does not. Signals that kill the process
are left out.

* `known_calls`: **every name is in the object of the example's own eBPF crate**.
* `exitCode_main`: **the exit code**, whatever the arguments are and the system answers.
* `loader_follows_main`: the firewalls' `main` does what the run with packets takes it to do.
-/

namespace AyaBook.Userspace

open AyaBook.Lib AyaBook.Xtask

/-! ## Objects -/

/-- The types of `aya::programs` a program is converted to. -/
inductive ProgramKind where
  | xdp
  | schedClassifier
  | cgroupSkb
  | lsm
  | kProbe
  deriving DecidableEq, Repr

/-- The types of `aya::maps` a map is converted to. -/
inductive MapKind where
  | hashMap
  | perfEventArray
  deriving DecidableEq, Repr

/-- A loaded object: its programs, its maps and its globals. -/
structure Bpf where
  programs : List (String × ProgramKind)
  maps : List (String × MapKind)
  globals : List String

/-- What the eBPF crate of an example defines. -/
def ebpf : Example → Bpf
  | .ayaTool => ⟨[("task_alloc", .lsm)], [("PROCESSES", .hashMap)], []⟩
  | .cgroupSkbEgress =>
    ⟨[("cgroup_skb_egress", .cgroupSkb)], [("EVENTS", .perfEventArray), ("BLOCKLIST", .hashMap)],
      []⟩
  | .kprobetcp => ⟨[("kprobetcp", .kProbe)], [], []⟩
  | .lsmNice => ⟨[("task_setnice", .lsm)], [], ["PID"]⟩
  | .tcEgress => ⟨[("tc_egress", .schedClassifier)], [("BLOCKLIST", .hashMap)], []⟩
  | .xdpDrop => ⟨[("xdp_firewall", .xdp)], [("BLOCKLIST", .hashMap)], []⟩
  | .xdpHello => ⟨[("xdp_hello", .xdp)], [], []⟩
  | .xdpLog => ⟨[("xdp_firewall", .xdp)], [], []⟩

/-! ## Options -/

/-- The examples with a `struct Opt`. -/
def parses : Example → Bool
  | .ayaTool | .lsmNice => false
  | .cgroupSkbEgress | .kprobetcp | .tcEgress | .xdpDrop | .xdpHello | .xdpLog => true

/-- How `main` is left early: by a `?`, with the text of a `.context`; by a panic; or by an exit
within `Opt::parse`. -/
inductive Failure where
  | error (context : Option String)
  | panic (message : String)
  | exit (code : Nat)
  deriving DecidableEq, Repr

/-- `Opt::parse`, with what `clap` makes of the arguments; without a `struct Opt` they are not
looked at. -/
def parseOpt (x : Example) (opt : Parsed String) : Except Failure String :=
  if parses x then
    match opt with
    | .options opt => .ok opt
    | .help => .error (.exit 0)
    | .usageError => .error (.exit 2)
  else .ok ""

/-- `Opt::parse` exits for a help that was asked for and for a usage error. -/
theorem parseOpt_eq_error_iff {x : Example} {parsed : Parsed String} {failure : Failure} :
    parseOpt x parsed = .error failure ↔ parses x = true ∧
      ((parsed = .help ∧ failure = .exit 0) ∨ (parsed = .usageError ∧ failure = .exit 2)) := by
  unfold parseOpt
  split
  · rename_i hparses
    cases parsed <;> simp [hparses, eq_comm]
  · rename_i hparses
    exact iff_of_false (fun h => nomatch h) fun h => hparses h.1

/-! ## Calls -/

/-- The calls of the `main`s. -/
inductive Call where
  /-- `BpfLoader::load`, after `set_global(…, true)` of the globals. -/
  | bpfLoad (globals : List String)
  /-- `BpfLogger::init`, with a warning or a `?` for its failure. -/
  | initLogger (required : Bool)
  | addClsact (iface : String)
  | btfFromSysFs
  /-- `bpf.program_mut(name).unwrap().try_into()?`. -/
  | programMut (name : String) (kind : ProgramKind)
  | openCgroup (path : String)
  | load
  /-- `program.attach`, with the interface or the kernel function it names. -/
  | attach (target : Option String) (context : Option String)
  /-- `HashMap::try_from(bpf.map_mut(name).unwrap())?`. -/
  | mapMut (name : String)
  /-- `Ipv4Addr::new(1, 1, 1, 1).try_into()?`. -/
  | blockAddr
  | insert
  /-- `AsyncPerfEventArray::try_from(bpf.take_map(name).unwrap())?`. -/
  | takeMap (name : String)
  | onlineCpus
  | openPerf (cpu : Nat)
  | setHandler
  | waitCtrlC
  /-- `while running.load(…) { thread::sleep(…) }`. -/
  | pollRunning
  deriving DecidableEq, Repr

/-- `unwrap` of `None`. -/
def unwrapNone : Failure := .panic "called `Option::unwrap()` on a `None` value"

/-- `get(name).unwrap()`, and a conversion to `kind`. -/
def convert {K : Type} [DecidableEq K] (named : List (String × K)) (name : String) (kind : K) :
    Except Failure Unit :=
  match named.lookup name with
  | none => .error unwrapNone
  | some k => if k = kind then .ok () else .error (.error none)

/-- How `main` is left when the system refuses a call. -/
def refusal : Call → Failure
  | .attach _ context => .error context
  | .setHandler => .panic "Error setting Ctrl-C handler"
  | _ => .error none

/-- How a call ends, with the object `bpf` and the system's answers `sys`. -/
def attempt (bpf : Bpf) (sys : Call → Bool) (call : Call) : Except Failure Unit :=
  match call with
  | .initLogger false | .addClsact _ | .blockAddr | .pollRunning => .ok ()
  | .bpfLoad globals =>
    if (∀ name ∈ globals, name ∈ bpf.globals) ∧ sys call = true then .ok ()
    else .error (refusal call)
  | .programMut name kind => convert bpf.programs name kind
  | .mapMut name => convert bpf.maps name .hashMap
  | .takeMap name => convert bpf.maps name .perfEventArray
  | _ => if sys call then .ok () else .error (refusal call)

/-- The text for a failing attach of an XDP program. -/
def attachXdp : Option String :=
  some ("failed to attach the XDP program with default flags - " ++
    "try changing XdpFlags::default() to XdpFlags::SKB_MODE")

/-- The calls of `main` after its options, in source order; `cpus` are the online ones, and `opt` is
the interface or the path that was parsed. -/
def calls (cpus : List Nat) (opt : String) : Example → List Call
  | .ayaTool =>
    [.bpfLoad [], .btfFromSysFs, .programMut "task_alloc" .lsm, .load, .attach none none,
      .setHandler, .pollRunning]
  | .cgroupSkbEgress =>
    [.bpfLoad [], .programMut "cgroup_skb_egress" .cgroupSkb, .openCgroup opt, .load,
      .attach none none, .mapMut "BLOCKLIST", .blockAddr, .insert, .takeMap "EVENTS",
      .onlineCpus] ++ cpus.map .openPerf ++ [.waitCtrlC]
  | .kprobetcp =>
    [.bpfLoad [], .initLogger false, .programMut "kprobetcp" .kProbe, .load,
      .attach (some "tcp_connect") none, .waitCtrlC]
  | .lsmNice =>
    [.bpfLoad ["PID"], .initLogger false, .btfFromSysFs, .programMut "task_setnice" .lsm, .load,
      .attach none none, .waitCtrlC]
  | .tcEgress =>
    [.bpfLoad [], .initLogger false, .addClsact opt, .programMut "tc_egress" .schedClassifier,
      .load, .attach (some opt) none, .mapMut "BLOCKLIST", .blockAddr, .insert, .waitCtrlC]
  | .xdpDrop =>
    [.bpfLoad [], .initLogger false, .programMut "xdp_firewall" .xdp, .load,
      .attach (some opt) attachXdp, .mapMut "BLOCKLIST", .blockAddr, .insert, .waitCtrlC]
  | .xdpHello =>
    [.bpfLoad [], .initLogger true, .programMut "xdp_hello" .xdp, .load,
      .attach (some opt) attachXdp, .waitCtrlC]
  | .xdpLog =>
    [.bpfLoad [], .initLogger false, .programMut "xdp_firewall" .xdp, .load,
      .attach (some opt) attachXdp, .waitCtrlC]

/-- `main`, up to its end: the calls made and its result. -/
def main (cpus : List Nat) (bpf : Bpf) (sys : Call → Bool) (opt : Parsed String) (x : Example) :
    Traced Call Failure Unit := do
  let opt ← .ofExcept (parseOpt x opt)
  .each (attempt bpf sys) (calls cpus opt x)

/-- The exit code of a process. -/
def exitCode (x : Example) : Except Failure Unit → Nat
  | .ok () => 0
  | .error (.panic _) => 101
  | .error (.exit code) => code
  | .error (.error _) =>
    match x with
    -- `main` prints what `try_main` returned
    | .ayaTool => 0
    | _ => 1

/-! ## With the object of its own crate -/

/-- The names a call asks for are in the object. -/
def Known (bpf : Bpf) : Call → Prop
  | .bpfLoad globals => ∀ name ∈ globals, name ∈ bpf.globals
  | .programMut name kind => bpf.programs.lookup name = some kind
  | .mapMut name => bpf.maps.lookup name = some .hashMap
  | .takeMap name => bpf.maps.lookup name = some .perfEventArray
  | _ => True

instance (bpf : Bpf) : DecidablePred (Known bpf)
  | .bpfLoad globals => inferInstanceAs (Decidable (∀ name ∈ globals, name ∈ bpf.globals))
  | .programMut .. | .mapMut _ | .takeMap _ => inferInstanceAs (Decidable (_ = _))
  | .initLogger _ | .addClsact _ | .btfFromSysFs | .openCgroup _ | .load | .attach .. | .blockAddr
  | .insert | .onlineCpus | .openPerf _ | .setHandler | .waitCtrlC | .pollRunning =>
    inferInstanceAs (Decidable True)

/-- **No name is missing**: what a `main` asks for is what the example's eBPF crate defines, under
the same name and of the same kind. -/
theorem known_calls (cpus : List Nat) (opt : String) (x : Example) :
    ∀ call ∈ calls cpus opt x, Known (ebpf x) call := by
  have hopen : ∀ call ∈ cpus.map Call.openPerf, Known (ebpf .cgroupSkbEgress) call := by
    intro call hcall
    obtain ⟨cpu, -, rfl⟩ := List.mem_map.mp hcall
    trivial
  cases x with
  | cgroupSkbEgress =>
    rw [calls, List.forall_mem_append, List.forall_mem_append]
    refine ⟨⟨?_, hopen⟩, by decide⟩
    simp [Known, ebpf, List.lookup_cons]
  | _ => simp [calls, Known, ebpf, List.lookup_cons]

/-- The system is asked, and its refusal ends `main`. -/
def Asks : Call → Bool
  | .initLogger required => required
  | .addClsact _ | .programMut .. | .mapMut _ | .blockAddr | .takeMap _ | .pollRunning => false
  | _ => true

/-- The system refuses a call that `main` cannot do without. -/
def refused (sys : Call → Bool) (call : Call) : Bool := Asks call && !sys call

theorem convert_of_lookup {K : Type} [DecidableEq K] {named : List (String × K)} {name : String}
    {kind : K} (h : named.lookup name = some kind) : convert named name kind = .ok () := by
  rw [convert, h]
  exact if_pos rfl

/-- **A call whose names are known** fails iff the system refuses it. -/
theorem attempt_eq {bpf : Bpf} {call : Call} (h : Known bpf call) (sys : Call → Bool) :
    attempt bpf sys call =
      if refused sys call then .error (refusal call) else .ok () := by
  have hask : Asks call = true → attempt bpf sys call =
      (if sys call then .ok () else .error (refusal call)) →
        attempt bpf sys call = if refused sys call then .error (refusal call) else .ok () := by
    intro hasks hattempt
    rw [hattempt, refused, hasks]
    cases sys call <;> rfl
  cases call with
  | addClsact _ | blockAddr | pollRunning => rfl
  | programMut name kind => exact convert_of_lookup h
  | mapMut name => exact convert_of_lookup h
  | takeMap name => exact convert_of_lookup h
  | initLogger required =>
    cases required with
    | false => rfl
    | true => exact hask rfl rfl
  | bpfLoad globals =>
    refine hask rfl ?_
    rw [attempt]
    exact if_congr (and_iff_right h) rfl rfl
  | _ => exact hask rfl rfl

/-! ## The exit code -/

/-- **How far the calls get**: to their end, or to the first one the system refuses. -/
theorem calls_cases (cpus : List Nat) (sys : Call → Bool) (opt : String) (x : Example) :
    let out : Traced Call Failure Unit := .each (attempt (ebpf x) sys) (calls cpus opt x)
    (out = ⟨calls cpus opt x, .ok ()⟩ ∧ ∀ call ∈ calls cpus opt x, refused sys call = false) ∨
    ∃ pre call post, calls cpus opt x = pre ++ call :: post ∧
      (∀ c ∈ pre, refused sys c = false) ∧ refused sys call = true ∧
      out = ⟨pre ++ [call], .error (refusal call)⟩ := by
  have hok : ∀ call ∈ calls cpus opt x, attempt (ebpf x) sys call = .ok () →
      refused sys call = false := by
    intro call hcall hattempt
    rw [attempt_eq (known_calls cpus opt x call hcall)] at hattempt
    cases hrefused : refused sys call with
    | false => rfl
    | true =>
      rw [hrefused] at hattempt
      exact nomatch hattempt
  rcases Traced.each_cases (attempt (ebpf x) sys) (calls cpus opt x) with
    ⟨heach, hall⟩ | ⟨pre, call, post, e, hcalls, hpre, hcall, heach⟩
  · exact Or.inl ⟨heach, fun call hmem => hok call hmem (hall call hmem)⟩
  · refine Or.inr ⟨pre, call, post, hcalls, fun c hc => hok c ?_ (hpre c hc), ?_⟩
    · rw [hcalls]
      exact List.mem_append_left _ hc
    · have hmem : call ∈ calls cpus opt x := by
        rw [hcalls]
        exact List.mem_append_right _ List.mem_cons_self
      rw [attempt_eq (known_calls cpus opt x call hmem)] at hcall
      cases hrefused : refused sys call with
      | false =>
        rw [hrefused] at hcall
        exact nomatch hcall
      | true =>
        rw [hrefused] at hcall
        refine ⟨rfl, ?_⟩
        show Traced.each _ _ = _
        rw [heach, ← Except.error.inj hcall]

theorem main_of_parse {x : Example} {parsed : Parsed String} {opt : String}
    (h : parseOpt x parsed = .ok opt) (cpus : List Nat) (bpf : Bpf) (sys : Call → Bool) :
    main cpus bpf sys parsed x = .each (attempt bpf sys) (calls cpus opt x) := by
  rw [main, h]
  rfl

/-- An exit within `Opt::parse` is before any call. -/
theorem main_of_exit {x : Example} {parsed : Parsed String} {failure : Failure}
    (h : parseOpt x parsed = .error failure) (cpus : List Nat) (bpf : Bpf) (sys : Call → Bool) :
    main cpus bpf sys parsed x = ⟨[], .error failure⟩ := by
  rw [main, h]
  rfl

/-- The exit code of a `main` that the system refuses a call. -/
def refusedCode (x : Example) : Call → Nat
  | .setHandler => 101
  | _ => if x = .ayaTool then 0 else 1

theorem exitCode_refusal (x : Example) (call : Call) :
    exitCode x (.error (refusal call)) = refusedCode x call := by
  cases call with
  | setHandler => cases x <;> rfl
  | _ => cases x <;> rfl

/-- **The exit code of the calls**: the first one that the system refuses decides it. -/
theorem exitCode_calls (cpus : List Nat) (sys : Call → Bool) (opt : String) (x : Example) :
    let out : Traced Call Failure Unit := .each (attempt (ebpf x) sys) (calls cpus opt x)
    exitCode x out.result = ((calls cpus opt x).find? (refused sys)).elim 0 (refusedCode x) ∧
      (exitCode x out.result = 0 → x ≠ .ayaTool → out = ⟨calls cpus opt x, .ok ()⟩) := by
  intro out
  rcases calls_cases cpus sys opt x with
    ⟨hall, hnone⟩ | ⟨pre, call, post, hcalls, hpre, hcall, hend⟩
  · have hout : out = ⟨calls cpus opt x, .ok ()⟩ := hall
    have hfind : (calls cpus opt x).find? (refused sys) = none := by
      rw [List.find?_eq_none]
      intro c hc
      rw [hnone c hc]
      exact Bool.false_ne_true
    rw [hout, hfind]
    exact ⟨rfl, fun _ _ => rfl⟩
  · have hfind : (calls cpus opt x).find? (refused sys) = some call := by
      rw [List.find?_eq_some_iff_append]
      exact ⟨hcall, pre, post, hcalls, fun c hc => by rw [hpre c hc]; rfl⟩
    have hout : out = ⟨pre ++ [call], .error (refusal call)⟩ := hend
    have hcode : exitCode x out.result = refusedCode x call := by
      rw [hout, exitCode_refusal]
    rw [hcode, hfind]
    refine ⟨rfl, fun hzero hx => absurd hzero ?_⟩
    unfold refusedCode
    split
    · decide
    · rw [if_neg hx]
      decide

/-- **The exit code of `main`.** Of the six examples with options, `--help` exits with 0 and a usage
error with 2, before any call. Else the first call that the system refuses and `main` cannot do
without decides it: a refusal to set the Ctrl-C handler is a panic; any other is the exit code 1,
but 0 in `aya-tool`. Then an exit code 0 of another example says that every call was made, up to
the wait for Ctrl-C. -/
theorem exitCode_main (cpus : List Nat) (sys : Call → Bool) (parsed : Parsed String)
    (x : Example) :
    let out := main cpus (ebpf x) sys parsed x
    match parseOpt x parsed with
    | .error failure =>
      parses x = true ∧ out = ⟨[], .error failure⟩ ∧
        ((parsed = .help ∧ exitCode x out.result = 0) ∨
          (parsed = .usageError ∧ exitCode x out.result = 2))
    | .ok opt =>
      exitCode x out.result = ((calls cpus opt x).find? (refused sys)).elim 0 (refusedCode x) ∧
        (exitCode x out.result = 0 → x ≠ .ayaTool → out = ⟨calls cpus opt x, .ok ()⟩) := by
  intro out
  cases h : parseOpt x parsed with
  | ok opt =>
    have hout : out = .each (attempt (ebpf x) sys) (calls cpus opt x) := main_of_parse h cpus _ sys
    rw [hout]
    exact exitCode_calls cpus sys opt x
  | error failure =>
    have hout : out = ⟨[], .error failure⟩ := main_of_exit h cpus _ sys
    obtain ⟨hparses, hfailure⟩ := parseOpt_eq_error_iff.mp h
    rw [hout]
    refine ⟨hparses, rfl, ?_⟩
    rcases hfailure with ⟨rfl, rfl⟩ | ⟨rfl, rfl⟩
    · exact Or.inl ⟨rfl, rfl⟩
    · exact Or.inr ⟨rfl, rfl⟩

theorem refusal_ne_exit (call : Call) (code : Nat) : refusal call ≠ .exit code := by
  cases call <;> exact fun h => nomatch h

/-- A refused call leaves the exit code 0 only where `main` prints what `try_main` returned. -/
theorem exitCode_refusal_eq_zero_iff (x : Example) (call : Call) :
    exitCode x (.error (refusal call)) = 0 ↔
      x = .ayaTool ∧ ∀ message, refusal call ≠ .panic message := by
  cases hcall : refusal call with
  | error context => cases x <;> simp [exitCode]
  | panic message => simp [exitCode]
  | exit code => exact absurd hcall (refusal_ne_exit call code)

/-- **The exit code 0**: every call was made; or `aya-tool` did not panic; or help was asked for. -/
theorem exitCode_eq_zero_iff (cpus : List Nat) (sys : Call → Bool) (parsed : Parsed String)
    (x : Example) :
    let out := main cpus (ebpf x) sys parsed x
    exitCode x out.result = 0 ↔
      (∃ opt, parseOpt x parsed = .ok opt ∧ out = ⟨calls cpus opt x, .ok ()⟩) ∨
        (x = .ayaTool ∧ ∀ message, out.result ≠ .error (.panic message)) ∨
        (parses x = true ∧ parsed = .help) := by
  intro out
  cases hparse : parseOpt x parsed with
  | error failure =>
    have hout : out = ⟨[], .error failure⟩ := main_of_exit hparse cpus _ sys
    obtain ⟨hparses, hfailure⟩ := parseOpt_eq_error_iff.mp hparse
    have hx : x ≠ .ayaTool := by
      rintro rfl
      exact nomatch hparses
    rw [hout]
    rcases hfailure with ⟨rfl, rfl⟩ | ⟨rfl, rfl⟩
    · exact iff_of_true rfl (Or.inr (Or.inr ⟨hparses, rfl⟩))
    · refine iff_of_false (fun h => nomatch h) ?_
      rintro (⟨opt, h, -⟩ | ⟨h, -⟩ | ⟨-, h⟩)
      · exact nomatch h
      · exact hx h
      · exact nomatch h
  | ok opt =>
    have hhelp : ¬ (parses x = true ∧ parsed = .help) := by
      rintro ⟨hparses, rfl⟩
      rw [parseOpt, if_pos hparses] at hparse
      exact nomatch hparse
    have hout : out = .each (attempt (ebpf x) sys) (calls cpus opt x) :=
      main_of_parse hparse cpus _ sys
    rcases calls_cases cpus sys opt x with ⟨heach, -⟩ | ⟨pre, call, post, -, -, -, heach⟩
    · rw [hout, heach]
      exact iff_of_true rfl (Or.inl ⟨opt, rfl, rfl⟩)
    · rw [hout, heach, exitCode_refusal_eq_zero_iff]
      constructor
      · rintro ⟨hx, hpanic⟩
        exact Or.inr (Or.inl ⟨hx, fun message h => hpanic message (Except.error.inj h)⟩)
      · rintro (⟨opt', -, h⟩ | ⟨hx, hpanic⟩ | h)
        · exact nomatch congrArg Traced.result h
        · exact ⟨hx, fun message h => hpanic message (congrArg Except.error h)⟩
        · exact absurd h hhelp

/-! ## The firewalls' `main` among packets -/

/-- The firewall of an example. -/
def firewall (cpus : List Nat) : Example → Option Firewall
  | .xdpDrop => some .xdpDrop
  | .tcEgress => some .tcEgress
  | .cgroupSkbEgress => some (.cgroupSkbEgress cpus.length)
  | _ => none

/-- The step a call is, if a firewall makes it. -/
def Call.step : Call → Option Step
  | .bpfLoad _ => some .bpfLoad
  | .initLogger _ => some .initLogger
  | .addClsact _ => some .addClsact
  | .programMut .. => some .programMut
  | .openCgroup _ => some .openCgroup
  | .load => some .load
  | .attach .. => some .attach
  | .mapMut _ => some .mapMut
  | .blockAddr => some .blockAddr
  | .insert => some .insert
  | .takeMap _ => some .takeEvents
  | .onlineCpus => some .onlineCpus
  | .openPerf _ => some .openPerf
  | .waitCtrlC => some .waitCtrlC
  | .btfFromSysFs | .setHandler | .pollRunning => none

/-- **The steps of a firewall are the calls of its `main`.** -/
theorem map_step_calls {cpus : List Nat} {x : Example} {w : Firewall}
    (hw : firewall cpus x = some w) (opt : String) :
    (calls cpus opt x).map Call.step = (w.setup ++ [Step.waitCtrlC]).map some := by
  cases x with
  | xdpDrop | tcEgress =>
    obtain rfl := Option.some.inj hw
    rfl
  | cgroupSkbEgress =>
    obtain rfl := Option.some.inj hw
    have hopen : (cpus.map Call.openPerf).map Call.step =
        (List.replicate cpus.length Step.openPerf).map some := by
      rw [List.map_map, List.map_replicate]
      exact List.map_const'
    rw [calls, List.map_append, List.map_append, hopen, Firewall.setup_cgroupSkbEgress,
      List.map_append, List.map_append]
    rfl
  | _ => exact nomatch hw

/-- The firewalls do not insist on their logger. -/
theorem initLogger_not_mem {cpus : List Nat} {x : Example} {w : Firewall}
    (hw : firewall cpus x = some w) (opt : String) :
    Call.initLogger true ∉ calls cpus opt x := by
  cases x with
  | xdpDrop | tcEgress | cgroupSkbEgress => simp [calls]
  | _ => exact nomatch hw

/-- A refusal that ends a firewall's `main` fails its step too. -/
theorem unfailing_of_asks {call : Call} (hcall : call ≠ .initLogger true)
    (hasks : Asks call = true) {step : Step} (hstep : call.step = some step) :
    ¬ Loader.Unfailing step := by
  cases call with
  | initLogger required =>
    cases required with
    | false => exact nomatch hasks
    | true => exact absurd rfl hcall
  | addClsact _ | programMut _ _ | mapMut _ | blockAddr | takeMap _ | pollRunning =>
    exact nomatch hasks
  | btfFromSysFs | setHandler => exact nomatch hstep
  | _ =>
    obtain rfl := Option.some.inj hstep
    decide

/-- Call by call, that the system does not refuse `main` something it cannot do without; then the
detach. -/
def answers (cpus : List Nat) (sys : Call → Bool) (opt : String) (x : Example) : List Bool :=
  (calls cpus opt x).map (fun call => !refused sys call) ++ [true]

/-- The calls that `main` got past, whether or not they did what they were made for. -/
def passed (out : Traced Call Failure Unit) : List Call :=
  match out.result with
  | .ok () => out.trace
  | .error _ => out.trace.dropLast

/-- **The run with packets is of this `main`**, once its options are parsed: told call by call
whether it may go on, the steps done there are the calls that `main` gets past here, then the
detach. -/
theorem loader_follows_main {cpus : List Nat} {x : Example} {w : Firewall}
    (hw : firewall cpus x = some w) (sys : Call → Bool) (opt : String) :
    let s := (Loader.machine w).last (.start w) ((answers cpus sys opt x).map .main)
    s.todo = [] ∧ s.done.map some =
      (passed (main cpus (ebpf x) sys (.options opt) x)).map Call.step ++ [some .detach] := by
  have hparse : parseOpt x (.options opt) = .ok opt := by
    cases x with
    | xdpDrop | tcEgress | cgroupSkbEgress => rfl
    | _ => exact nomatch hw
  have heach := main_of_parse hparse cpus (ebpf x) sys
  have hready : (Loader.start w).Ready := Or.inl rfl
  have hsteps := map_step_calls hw opt
  -- the calls `pre` succeed: their steps `steps` are done
  have hdone : ∀ (pre : List Call) (steps rest : List Step),
      pre.map Call.step = steps.map some → (Loader.start w).todo = steps ++ rest →
        (∀ call ∈ pre, refused sys call = false) →
          let t := (pre.map fun call => !refused sys call).foldl Loader.perform (.start w)
          t.Ready ∧ t.done = steps ∧ t.todo = rest := by
    intro pre steps rest hmap htodo hpre
    have hlen : pre.length = steps.length := by
      have h := congrArg List.length hmap
      rwa [List.length_map, List.length_map] at h
    refine Loader.foldl_perform hready htodo (by rw [List.length_map, hlen]) fun p hp => ?_
    obtain ⟨call, hcall, heq⟩ := List.mem_map.mp (List.of_mem_zip hp).1
    exact Or.inl (by rw [← heq, hpre call hcall]; rfl)
  intro s
  have hs : s = (answers cpus sys opt x).foldl Loader.perform (.start w) :=
    Loader.last_map_main w _ _
  rw [heach]
  rcases calls_cases cpus sys opt x with
    ⟨hmain, hall⟩ | ⟨pre, call, post, hcalls, hpre, hcall, hmain⟩
  · obtain ⟨-, hd, htodo⟩ := hdone (calls cpus opt x) _ [.detach] hsteps w.main_eq hall
    obtain ⟨hend, hnil⟩ := Loader.foldl_perform_detach htodo (List.cons_ne_nil true [])
    rw [hs, answers, List.foldl_append, hend, hd, hmain, List.map_append, ← hsteps]
    exact ⟨hnil, rfl⟩
  · rw [hcalls, List.map_append, List.map_cons] at hsteps
    obtain ⟨steps, steps', happ, hpremap, hrest⟩ := List.map_eq_append_iff.mp hsteps.symm
    obtain ⟨step, post', rfl, hstep, -⟩ := List.map_eq_cons_iff.mp hrest
    have htodo : (Loader.start w).todo = steps ++ (step :: post' ++ [.detach]) := by
      rw [← List.append_assoc, ← happ]
      exact w.main_eq
    obtain ⟨hr, hd, htodo'⟩ := hdone pre steps _ hpremap.symm htodo hpre
    have hfail : ¬ Loader.Unfailing step := by
      have hasks : Asks call = true := by
        rw [refused, Bool.and_eq_true] at hcall
        exact hcall.1
      refine unfailing_of_asks ?_ hasks hstep.symm
      rintro rfl
      refine initLogger_not_mem hw opt ?_
      rw [hcalls]
      exact List.mem_append_right _ List.mem_cons_self
    have hanswers : answers cpus sys opt x = (pre.map fun c => !refused sys c) ++
        false :: ((post.map fun c => !refused sys c) ++ [true]) := by
      rw [answers, hcalls, List.map_append, List.map_cons, hcall, List.append_assoc]
      rfl
    have hperform := Loader.perform_fail hr htodo' hfail
    obtain ⟨hend, hnil⟩ := Loader.foldl_perform_detach (congrArg Loader.todo hperform)
      (List.concat_ne_nil true (post.map fun c => !refused sys c))
    rw [hs, hanswers, List.foldl_append, List.foldl_cons]
    refine ⟨hnil, ?_⟩
    rw [hend, hperform, hmain, List.map_append, hd, hpremap, passed, List.dropLast_concat]
    rfl

/-- `xdp-drop` without its interface: it attaches nothing and detaches. -/
theorem loader_follows_failing_attach :
    ((Loader.machine .xdpDrop).last (.start .xdpDrop)
      ((answers [] (fun call => call ≠ .attach (some "eth0") attachXdp) "eth0" .xdpDrop).map
        .main)).todo = [] :=
  (loader_follows_main (x := .xdpDrop) rfl _ "eth0").1

end AyaBook.Userspace
