import Mathlib.Logic.Function.Basic
import AyaBook.Egress.CgroupSkb
import AyaBook.Lib.BatchReader
import AyaBook.Lib.Machine

/-!
# The event log of `cgroup-skb-egress`

From the program's `EVENTS.output` to the line its userspace prints
(`cgroup-skb-egress/src/main.rs`). Each CPU has a perf ring and a reader task with ten buffers; a
ring holds the raw bytes of each `PacketLog` with the padding perf puts after them. Packets on any
CPU, inserts into the blocklist, reads of a batch and prints of a line may be interleaved in any
way. Kernel and userspace are little-endian.

The kernel does not take every record: the ring may be full, or `perf_array.open` is still to come
for the CPU. `EVENTS.output` then fails, and the program does not look at its result.

* `printed_isPrefix`: **the lines of a CPU's reader are a prefix of what the program decided on
  that CPU**, packet by packet, of all packets if no record was lost and else of those whose record
  was taken.
-/

namespace AyaBook.CgroupSkbEgress

open AyaBook.Lib

/-- `info!("LOG: DST {}, ACTION {}", src_addr, data.action)`. -/
structure Line where
  dst : Ipv4Addr
  action : Int32
  deriving DecidableEq, Repr

namespace EventLog

variable {Cpu : Type} [DecidableEq Cpu]

/-- A perf ring with the reader task of its CPU. -/
abbrev Reader := BatchReader (List UInt8) Line

/-- The body of the reader's loop, up to the print: the line for a buffer. -/
def line (buf : List UInt8) : Line :=
  let data := PacketLog.readUnaligned .little buf
  ⟨Ipv4Addr.ofU32 data.ipv4Address, data.action⟩

/-- The blocklist and the CPUs' rings and readers. -/
structure State (Cpu : Type) where
  blocklist : Blocklist
  readers : Cpu → Reader

/-- Ten empty buffers for each reader. -/
def start : State Cpu := ⟨.empty, fun _ => .start (List.replicate 10 [])⟩

/-- What happens next: the program runs on a packet, with the padding for its record and whether
the kernel takes it; an insert; `read_events` returns `k` events; the reader prints its next
line. -/
inductive Action (Cpu : Type) where
  | packet (c : Cpu) (skb : SkBuff) (padding : List UInt8) (taken : Bool)
  | insert (addr : Ipv4Addr)
  | readEvents (c : Cpu) (k : Nat)
  | print (c : Cpu)

/-- A step of a run; its output is the program's verdict on a packet. -/
abbrev Moment (Cpu : Type) := Move (State Cpu) (Action Cpu) (Option Int32)

/-- Change one CPU's reader. -/
def State.update (s : State Cpu) (c : Cpu) (r : Reader) : State Cpu :=
  { s with readers := Function.update s.readers c r }

@[simp] theorem State.readers_update_self (s : State Cpu) (c : Cpu) (r : Reader) :
    (s.update c r).readers c = r := by
  show Function.update s.readers c r c = r
  rw [Function.update_self]

theorem State.readers_update_of_ne (s : State Cpu) {c d : Cpu} (r : Reader) (h : d ≠ c) :
    (s.update c r).readers d = s.readers d := by
  show Function.update s.readers c r d = s.readers d
  rw [Function.update_of_ne h]

/-- What the ring takes for a record handed to `EVENTS.output`. -/
def sample (padding : List UInt8) (sent : Sent) : List UInt8 :=
  sent.entry.toBytes .little ++ padding

/-- Kernel and userspace. -/
def machine : Machine (State Cpu) (Action Cpu) (Option Int32) where
  step s
    | .packet c skb padding taken =>
      let out := cgroupSkbEgress .little s.blocklist taken skb
      let samples := (out.reports.filter Sent.taken).map (sample padding)
      (s.update c ((s.readers c).produce samples), some out.verdict)
    | .insert addr =>
      ({ s with blocklist := (Blocklist.insertAddr .little s.blocklist addr).getD s.blocklist },
        none)
    | .readEvents c k => (s.update c ((s.readers c).fetch k), none)
    | .print c => (s.update c ((s.readers c).handleNext line), none)

/-- What a step decides on CPU `c`: for an IPv4 packet there with its destination address in
place, the address and the verdict returned. -/
def decided (c : Cpu) (m : Moment Cpu) : Option Line :=
  match m.act with
  | .packet c' skb _ _ =>
    if c' = c ∧ skb.protocolBytes = (0x08, 0x00) ∧ 20 ≤ skb.data.length then
      m.out.map (Line.mk (addrAt skb.data 16))
    else none
  | _ => none

/-- The kernel takes the record of the step, if there is one. -/
def Action.taken : Action Cpu → Bool
  | .packet _ _ _ taken => taken
  | _ => true

/-- The line a step owes the reader of CPU `c`: what it decided, if the record was taken. -/
def owed (c : Cpu) (m : Moment Cpu) : Option Line :=
  if m.act.taken then decided c m else none

/-- The lines a run owes the reader of CPU `c`, in order. -/
def expected (c : Cpu) (ms : List (Moment Cpu)) : List Line :=
  ms.filterMap (owed c)

/-! ## One packet -/

/-- A record read back from a buffer. -/
theorem line_sample (padding : List UInt8) (sent : Sent) :
    line (sample padding sent) = ⟨Ipv4Addr.ofU32 sent.entry.ipv4Address, sent.entry.action⟩ := by
  rw [line, sample, PacketLog.readUnaligned_toBytes]

/-- What the program sends for a packet, and the kernel takes. -/
theorem filter_reports (m : Blocklist) (taken : Bool) (skb : SkBuff) :
    (cgroupSkbEgress .little m taken skb).reports.filter Sent.taken =
      if taken then (cgroupSkbEgress .little m taken skb).reports else [] := by
  have hall : ∀ sent ∈ (cgroupSkbEgress .little m taken skb).reports, sent.taken = taken := by
    intro sent hsent
    rw [cgroupSkbEgress_eq, mem_filterOutcome_reports] at hsent
    obtain ⟨a, -, rfl⟩ := hsent
    rfl
  cases taken with
  | true => exact List.filter_eq_self.mpr hall
  | false => exact List.filter_eq_nil_iff.mpr fun sent hsent => by rw [hall sent hsent]; decide

/-- **What the program sends for a packet** reads as what it decides. -/
theorem lines_of_reports (c : Cpu) (s : State Cpu) (skb : SkBuff) (padding : List UInt8)
    (taken : Bool) :
    ((cgroupSkbEgress .little s.blocklist taken skb).reports.map (sample padding)).map line =
      (decided c (machine.move s (.packet c skb padding taken))).toList := by
  have hout : (machine.move s (.packet c skb padding taken)).out =
      some (cgroupSkbEgress .little s.blocklist taken skb).verdict := rfl
  have hdecided : decided c (machine.move s (.packet c skb padding taken)) =
      if skb.protocolBytes = (0x08, 0x00) ∧ 20 ≤ skb.data.length then
        some ⟨addrAt skb.data 16, (cgroupSkbEgress .little s.blocklist taken skb).verdict⟩
      else none := by
    show (if c = c ∧ _ then Option.map _ _ else none) = _
    rw [hout]
    simp only [true_and, Option.map_some]
  rw [hdecided, cgroupSkbEgress_eq]
  by_cases h : skb.protocolBytes = (0x08, 0x00) ∧ 20 ≤ skb.data.length
  · have hr : skbReading .little skb = .ipv4 (addrAt skb.data 16) :=
      skbReading_ipv4_iff.mpr ⟨h.1, h.2, rfl⟩
    rw [if_pos h, hr]
    show [line (sample padding (record taken _ _))] = [_]
    rw [line_sample, record, Ipv4Addr.ofU32_toU32]
    rfl
  · have hr : ∀ a, skbReading .little skb ≠ .ipv4 a := fun a ha =>
      h ⟨(skbReading_ipv4_iff.mp ha).1, (skbReading_ipv4_iff.mp ha).2.1⟩
    rw [if_neg h]
    cases hread : skbReading .little skb with
    | truncated => rfl
    | other => rfl
    | ipv4 a => exact absurd hread (hr a)

/-- **What the ring gets for a packet** reads as the line the packet owes. -/
theorem lines_of_samples (c : Cpu) (s : State Cpu) (skb : SkBuff) (padding : List UInt8)
    (taken : Bool) :
    (((cgroupSkbEgress .little s.blocklist taken skb).reports.filter Sent.taken).map
      (sample padding)).map line =
      (owed c (machine.move s (.packet c skb padding taken))).toList := by
  rw [filter_reports]
  cases taken with
  | true => exact lines_of_reports c s skb padding true
  | false => rfl

/-! ## Runs -/

/-- Every reader accounts for what the run so far owes it. -/
def Faithful (ms : List (Moment Cpu)) (s : State Cpu) : Prop :=
  ∀ c, (s.readers c).Accounts line (expected c ms)

theorem expected_concat (c : Cpu) (ms : List (Moment Cpu)) (m : Moment Cpu) :
    expected c (ms ++ [m]) = expected c ms ++ (owed c m).toList := by
  rw [expected, expected, List.filterMap_append]
  cases h : owed c m <;> simp [h]

/-- Changing the reader of one CPU: what it must account for then, the others as before. -/
theorem faithful_update {ms ms' : List (Moment Cpu)} {s : State Cpu} (h : Faithful ms s) (c : Cpu)
    {r : Reader} (hr : r.Accounts line (expected c ms'))
    (hother : ∀ d, d ≠ c → expected d ms' = expected d ms) : Faithful ms' (s.update c r) := by
  intro d
  by_cases hd : d = c
  · subst hd
    rw [State.readers_update_self]
    exact hr
  · rw [State.readers_update_of_ne s r hd, hother d hd]
    exact h d

/-- A step that owes no line, and whose reader accounts for the same as before. -/
theorem faithful_reader {ms : List (Moment Cpu)} {s : State Cpu} (h : Faithful ms s)
    {m : Moment Cpu} (howed : ∀ d, owed d m = none) (c : Cpu) {r : Reader}
    (hr : r.Accounts line (expected c ms)) : Faithful (ms ++ [m]) (s.update c r) := by
  have hsame : ∀ d, expected d (ms ++ [m]) = expected d ms := by
    intro d
    rw [expected_concat, howed, Option.toList_none, List.append_nil]
  refine faithful_update h c ?_ fun d _ => hsame d
  rw [hsame]
  exact hr

/-- **One step**, whatever it is. -/
theorem faithful_step (ms : List (Moment Cpu)) (s : State Cpu) (a : Action Cpu)
    (h : Faithful ms s) : Faithful (ms ++ [machine.move s a]) (machine.next s a) := by
  cases a with
  | packet c skb padding taken =>
    refine faithful_update h c ?_ fun d hd => ?_
    · rw [expected_concat, ← lines_of_samples]
      exact BatchReader.accounts_produce (h c) _
    · have hdecided : decided d (machine.move s (.packet c skb padding taken)) = none :=
        if_neg fun hc => hd hc.1.symm
      have hnone : owed d (machine.move s (.packet c skb padding taken)) = none := by
        rw [owed, hdecided, ite_self]
      rw [expected_concat, hnone, Option.toList_none, List.append_nil]
  | insert addr =>
    intro c
    rw [expected_concat]
    exact (List.append_nil (expected c ms)).symm ▸ h c
  | readEvents c k => exact faithful_reader h (fun _ => rfl) c (BatchReader.accounts_fetch (h c) k)
  | print c => exact faithful_reader h (fun _ => rfl) c (BatchReader.accounts_handleNext (h c))

theorem faithful_run (as : List (Action Cpu)) :
    Faithful (machine.moves start as) (machine.last start as) :=
  Machine.history_induction (fun _ => BatchReader.accounts_start _) faithful_step as

/-- Without a loss, everything decided is owed. -/
theorem expected_of_taken {as : List (Action Cpu)} (htaken : ∀ a ∈ as, a.taken = true) (c : Cpu) :
    expected c (machine.moves start as) = (machine.moves start as).filterMap (decided c) := by
  refine List.filterMap_congr fun m hm => ?_
  obtain ⟨before, a, after, rfl, rfl⟩ := Machine.mem_moves.mp hm
  exact if_pos (htaken a (List.mem_append_right _ List.mem_cons_self))

/-- **The log is faithful.** At every moment of every interleaving, the lines printed by the reader
of a CPU are a prefix of the (destination, verdict) pairs, in order, of the IPv4 packets handled
on that CPU whose destination could be loaded: of all of them if no record was lost, and of those
whose record was taken in any case. -/
theorem printed_isPrefix (as : List (Action Cpu)) (c : Cpu) :
    ((machine.last start as).readers c).handled <+: expected c (machine.moves start as) ∧
      ((∀ a ∈ as, a.taken = true) → ((machine.last start as).readers c).handled <+:
        (machine.moves start as).filterMap (decided c)) := by
  have howed := (faithful_run as c).isPrefix
  refine ⟨howed, fun htaken => ?_⟩
  rw [← expected_of_taken htaken c]
  exact howed

/-- Once the ring is empty and the batch printed, every line owed has been printed. -/
theorem printed_eq_of_drained (as : List (Action Cpu)) (c : Cpu)
    (hpending : ((machine.last start as).readers c).pending = [])
    (hring : ((machine.last start as).readers c).queue = []) :
    ((machine.last start as).readers c).handled = expected c (machine.moves start as) :=
  (faithful_run as c).handled_eq hpending hring

end EventLog

end AyaBook.CgroupSkbEgress
