import AyaBook.Egress.CgroupSkb
import AyaBook.Egress.Tc
import AyaBook.Lib.Machine
import AyaBook.Xdp.Drop

/-!
# The firewalls' `main`, and the packets that arrive meanwhile

Model of `xdp-drop/src/main.rs`, `tc-egress/src/main.rs` and `cgroup-skb-egress/src/main.rs` up to
their exit. Each `main` is its list of steps in source order; a step may fail, and a `?` then goes
straight to the detach. Packets arrive at any time and, while the program is attached, are judged
with the `BLOCKLIST` of that moment. All three embed the `bpfel` object.

All three attach before they insert the address they block.

* `dropped_iff_inserted`: **a packet to be blocked is dropped iff the insert has succeeded by
  then**, in every interleaving; `not_protected_from_attach` is a packet in the window before.
-/

namespace AyaBook

open AyaBook.Lib

/-- The three examples with a `BLOCKLIST`, the last one with its number of online CPUs. -/
inductive Firewall where
  | xdpDrop
  | tcEgress
  | cgroupSkbEgress (cpus : Nat)
  deriving DecidableEq, Repr

/-- What a `main` does, one call at a time. -/
inductive Step where
  | bpfLoad
  | initLogger
  | addClsact
  | programMut
  | openCgroup
  | load
  | attach
  | mapMut
  | blockAddr
  | insert
  | takeEvents
  | onlineCpus
  | openPerf
  | waitCtrlC
  | detach
  deriving DecidableEq, Repr

namespace Firewall

/-- `main`, in source order; the detach is the drop of `bpf`. -/
def main : Firewall → List Step
  | xdpDrop =>
    [.bpfLoad, .initLogger, .programMut, .load, .attach, .mapMut, .blockAddr, .insert,
      .waitCtrlC, .detach]
  | tcEgress =>
    [.bpfLoad, .initLogger, .addClsact, .programMut, .load, .attach, .mapMut, .blockAddr, .insert,
      .waitCtrlC, .detach]
  | cgroupSkbEgress cpus =>
    [.bpfLoad, .programMut, .openCgroup, .load, .attach, .mapMut, .blockAddr, .insert,
      .takeEvents, .onlineCpus] ++ List.replicate cpus .openPerf ++ [.waitCtrlC, .detach]

/-- An outgoing frame, with the kernel's answers to the program's calls. -/
structure Outgoing where
  frame : EthFrame
  loadError : Int64
  taken : Bool

/-- What the program is run on. -/
def Packet : Firewall → Type
  | xdpDrop => XdpContext
  | tcEgress => Outgoing
  | cgroupSkbEgress _ => Outgoing

/-- The frame's bytes. -/
def bytes : (w : Firewall) → w.Packet → List UInt8
  | xdpDrop, ctx => XdpContext.packet ctx
  | tcEgress, p => p.frame.bytes
  | cgroupSkbEgress _, p => p.frame.bytes

/-- Where the filtered address is in the frame: the source for `xdp-drop`, else the destination. -/
def addrOffset : Firewall → Nat
  | xdpDrop => 26
  | tcEgress => 30
  | cgroupSkbEgress _ => 30

/-- The program's verdict on a packet makes the kernel drop it. `XDP_ABORTED` does so like
`XDP_DROP`. -/
def drops : (w : Firewall) → Blocklist → w.Packet → Bool
  | xdpDrop, m, ctx => (XdpDrop.xdpFirewall .little m ctx).verdict ≠ XDP_PASS
  | tcEgress, m, p =>
    (TcEgress.tcEgress .little m (p.frame.atLink p.loadError)).verdict = TcEgress.TC_ACT_SHOT
  | cgroupSkbEgress _, m, p =>
    (CgroupSkbEgress.cgroupSkbEgress .little m p.taken (p.frame.atNetwork p.loadError)).verdict = 0

section Drops

variable {m : Blocklist} {a : Ipv4Addr}

theorem xdpDrop_drops_iff {ctx : XdpContext} (h : frameReading 26 ctx.packet = .ipv4 a) :
    (XdpDrop.xdpFirewall .little m ctx).verdict ≠ XDP_PASS ↔
      Blocklist.blocks .little m a = true := by
  rw [XdpDrop.xdpFirewall_eq, h, filterOutcome_verdict, ne_eq, XdpDrop.code_eq_pass_iff, ← ne_eq,
    policy_ne_passed_iff]
  simp

theorem tcEgress_drops_iff {f : EthFrame} {loadError : Int64}
    (h : frameReading 30 f.bytes = .ipv4 a) :
    (TcEgress.tcEgress .little m (f.atLink loadError)).verdict = TcEgress.TC_ACT_SHOT ↔
      Blocklist.blocks .little m a = true := by
  rw [TcEgress.tcEgress_eq, EthFrame.data_atLink, h]
  exact filterOutcome_drop_iff (by decide)

theorem cgroupSkbEgress_drops_iff {f : EthFrame} {loadError : Int64} {taken : Bool}
    (h : frameReading 30 f.bytes = .ipv4 a) :
    (CgroupSkbEgress.cgroupSkbEgress .little m taken (f.atNetwork loadError)).verdict = 0 ↔
      Blocklist.blocks .little m a = true := by
  rw [CgroupSkbEgress.cgroupSkbEgress_eq, CgroupSkbEgress.skbReading_atNetwork, h]
  exact filterOutcome_drop_iff (by decide)

/-- **A whole IPv4 packet** is dropped iff its filtered address is in the blocklist. -/
theorem drops_iff {w : Firewall} {p : w.Packet}
    (h : frameReading w.addrOffset (w.bytes p) = .ipv4 a) :
    w.drops m p = true ↔ Blocklist.blocks .little m a = true := by
  cases w with
  | xdpDrop => exact decide_eq_true_iff.trans (xdpDrop_drops_iff h)
  | tcEgress => exact decide_eq_true_iff.trans (tcEgress_drops_iff h)
  | cgroupSkbEgress cpus => exact decide_eq_true_iff.trans (cgroupSkbEgress_drops_iff h)

end Drops

end Firewall

/-! ## The run -/

/-- `Ipv4Addr::new(1, 1, 1, 1)`. -/
def blockAddr : Ipv4Addr := ⟨1, 1, 1, 1⟩

/-- Where `main` is: the steps that have succeeded, those to come, and what they have set up. -/
structure Loader where
  done : List Step
  todo : List Step
  attached : Bool
  blocklist : Blocklist

namespace Loader

/-- Before `main`'s first step. -/
def start (w : Firewall) : Loader := ⟨[], w.main, false, .empty⟩

/-- What a step sets up, or `none` when it fails; `ok` is the answer of the kernel or the system.
A failing `BpfLogger::init` only warns, a failing `qdisc_add_clsact` is ignored, and the
conversion of the address cannot fail. -/
def effect (s : Loader) (ok : Bool) : Step → Option Loader
  | .initLogger | .addClsact | .blockAddr => some s
  | .detach => some { s with attached := false }
  | .attach => if ok then some { s with attached := true } else none
  | .insert =>
    if ok then
      (Blocklist.insertAddr .little s.blocklist AyaBook.blockAddr).map fun m =>
        { s with blocklist := m }
    else none
  | _ => if ok then some s else none

/-- `main` takes its next step; after a failure only the detach is left. -/
def perform (s : Loader) (ok : Bool) : Loader :=
  match s.todo with
  | [] => s
  | step :: rest =>
    match s.effect ok step with
    | some s' => { s' with done := s.done ++ [step], todo := rest }
    | none => { s with todo := [.detach] }

/-- What happens next: a step of `main`, or a packet. -/
inductive Action (w : Firewall) where
  | main (ok : Bool)
  | packet (p : w.Packet)

/-- `main` interleaved with packets. The output says of a packet whether it was dropped, if the
program judged it. -/
def machine (w : Firewall) : Machine Loader (Action w) (Option Bool) where
  step s
    | .main ok => (s.perform ok, none)
    | .packet p => (s, if s.attached then some (w.drops s.blocklist p) else none)

/-- The blocklist holds `main`'s address exactly when the insert has succeeded. -/
def Inv (s : Loader) : Prop :=
  ∀ a, Blocklist.blocks .little s.blocklist a = true ↔ a = blockAddr ∧ Step.insert ∈ s.done

/-- **What a step that succeeds does to the blocklist.** -/
theorem blocks_effect {s s' : Loader} {ok : Bool} {step : Step} (h : s.effect ok step = some s')
    (a : Ipv4Addr) : Blocklist.blocks .little s'.blocklist a = true ↔
      (step = .insert ∧ a = blockAddr) ∨ Blocklist.blocks .little s.blocklist a = true := by
  by_cases hstep : step = .insert
  · subst hstep
    rw [effect] at h
    split at h
    · obtain ⟨m, hm, rfl⟩ := Option.map_eq_some_iff.mp h
      rw [Blocklist.blocks_insertAddr hm]
      simp only [true_and]
    · exact absurd h (by simp)
  · have hsame : s'.blocklist = s.blocklist := by
      revert h
      cases step with
      | insert => exact absurd rfl hstep
      | initLogger | addClsact | blockAddr | detach =>
        rintro ⟨⟩
        rfl
      | _ =>
        simp only [effect, Option.ite_none_right_eq_some, Option.some.injEq]
        rintro ⟨_, rfl⟩
        rfl
    rw [hsame]
    simp only [hstep, false_and, false_or]

theorem inv_start (w : Firewall) : (start w).Inv := by
  intro a
  rw [start, Blocklist.blocks_iff]
  simp only [BoundedMap.not_mem_empty, List.not_mem_nil, and_false]

theorem inv_perform {s : Loader} (h : s.Inv) (ok : Bool) : (s.perform ok).Inv := by
  unfold perform
  split
  · exact h
  · rename_i step rest htodo
    split
    · rename_i s' heff
      intro a
      simp only
      rw [blocks_effect heff, h a, List.mem_append, List.mem_singleton]
      constructor
      · rintro (⟨rfl, ha⟩ | ⟨ha, hdone⟩)
        · exact ⟨ha, Or.inr rfl⟩
        · exact ⟨ha, Or.inl hdone⟩
      · rintro ⟨ha, hdone | hstep⟩
        · exact Or.inr ⟨ha, hdone⟩
        · exact Or.inl ⟨hstep.symm, ha⟩
    · exact h

theorem inv_next {w : Firewall} (s : Loader) (a : Action w) (h : s.Inv) :
    ((machine w).next s a).Inv := by
  cases a with
  | main ok => exact inv_perform h ok
  | packet p => exact h

/-- **No unprotected packet after the insert.** In every interleaving of `main` with packets, an
IPv4 packet with the blocked address that is judged by the attached program is dropped iff
`main`'s insert has succeeded by then. -/
theorem dropped_iff_inserted (w : Firewall) (as : List (Action w)) (m : Move _ _ _)
    (hm : m ∈ (machine w).moves (start w) as) (p : w.Packet) (hp : m.act = .packet p)
    (hattached : m.pre.attached = true)
    (haddr : frameReading w.addrOffset (w.bytes p) = .ipv4 blockAddr) :
    m.out = some true ↔ Step.insert ∈ m.pre.done := by
  have hinv : m.pre.Inv := (Machine.moves_of_invariant (inv_start w) inv_next hm).1
  have hout : m.out = some (w.drops m.pre.blocklist p) := by
    rw [Machine.move_of_mem hm, hp]
    exact if_pos hattached
  rw [hout, Option.some.injEq, Firewall.drops_iff haddr, hinv]
  simp only [true_and]

/-- An IPv4 packet of 1.1.1.1. -/
def fromBlocked : List UInt8 :=
  [2, 0, 0, 0, 0, 1, 2, 0, 0, 0, 0, 2, 8, 0,
    0x45, 0, 0, 20, 0, 0, 0, 0, 64, 1, 0, 0, 1, 1, 1, 1, 10, 0, 0, 1]

/-- The packet for `xdp-drop`. -/
def fromBlockedCtx : XdpContext := .ofPacket fromBlocked (by decide)

theorem frameReading_fromBlockedCtx :
    frameReading (Firewall.addrOffset .xdpDrop) (Firewall.bytes .xdpDrop fromBlockedCtx) =
      .ipv4 blockAddr := by
  show frameReading 26 (XdpContext.ofPacket fromBlocked _).packet = _
  rw [XdpContext.packet_ofPacket]
  decide

/-- The first `n` steps of `xdp-drop`'s `main`, all successful. -/
def mainSteps (n : Nat) : List (Action .xdpDrop) := List.replicate n (.main true)

/-- While `main` waits for Ctrl-C, the packet is dropped. -/
theorem dropped_while_waiting :
    ((machine .xdpDrop).move ((machine .xdpDrop).last (start .xdpDrop) (mainSteps 8))
      (.packet fromBlockedCtx)).out = some true :=
  (dropped_iff_inserted .xdpDrop (mainSteps 8 ++ [.packet fromBlockedCtx]) _
    (Machine.move_mem_moves (mainSteps 8) _ []) fromBlockedCtx rfl (by decide)
    frameReading_fromBlockedCtx).mpr (by decide)

/-- **The window**: a packet of 1.1.1.1 between `program.attach` and `blocklist.insert` passes. -/
theorem not_protected_from_attach :
    ¬ ∀ (w : Firewall) (as : List (Action w)), ∀ m ∈ (machine w).moves (start w) as,
      ∀ p : w.Packet, m.act = .packet p → m.pre.attached = true →
        frameReading w.addrOffset (w.bytes p) = .ipv4 blockAddr → m.out = some true := by
  intro h
  have hdrop := h .xdpDrop (mainSteps 5 ++ [.packet fromBlockedCtx]) _
    (Machine.move_mem_moves (mainSteps 5) _ []) fromBlockedCtx rfl (by decide)
    frameReading_fromBlockedCtx
  exact absurd hdrop (by decide)

end Loader

end AyaBook
