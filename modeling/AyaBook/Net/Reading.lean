import Mathlib.Data.List.GetD
import AyaBook.Net.NetworkTypes

/-!
# What a filter reads off a packet, and what it is for

The abstract side of the packet programs, on byte lists. `frameReading off p` is the address at
`off` of the Ethernet frame `p`, or why there is none. `policy blocked` says what a blocklist
filter is meant to do with a reading: pass what is not IPv4, refuse what is cut short, and let the
blocklist decide the rest. The programs' own theorems say that each of them computes
`policy` of its packet's reading, in its own verdict codes.
-/

namespace AyaBook

/-! ## Bytes of a packet -/

/-- The bytes `p[off..off+n]`. -/
def bytesAt (p : List UInt8) (off n : Nat) : List UInt8 := (p.drop off).take n

/-- The dotted address `p[off].p[off+1].p[off+2].p[off+3]`. -/
def addrAt (p : List UInt8) (off : Nat) : Ipv4Addr :=
  ⟨p.getD off 0, p.getD (off + 1) 0, p.getD (off + 2) 0, p.getD (off + 3) 0⟩

/-- The big-endian 16-bit value at `off`. -/
def portAt (p : List UInt8) (off : Nat) : UInt16 :=
  u16Load .big [p.getD off 0, p.getD (off + 1) 0]

theorem length_bytesAt {p : List UInt8} {off n : Nat} (h : off + n ≤ p.length) :
    (bytesAt p off n).length = n := by
  rw [bytesAt, List.length_take, List.length_drop]
  omega

theorem bytesAt_succ {p : List UInt8} {off n : Nat} (h : off < p.length) :
    bytesAt p off (n + 1) = p.getD off 0 :: bytesAt p (off + 1) n := by
  rw [bytesAt, bytesAt, List.drop_eq_getElem_cons h, List.take_succ_cons,
    List.getD_eq_getElem p 0 h]

@[simp] theorem bytesAt_zero (p : List UInt8) (off : Nat) : bytesAt p off 0 = [] := rfl

theorem bytesAt_one {p : List UInt8} {off : Nat} (h : off < p.length) :
    bytesAt p off 1 = [p.getD off 0] := by
  rw [bytesAt_succ h, bytesAt_zero]

theorem bytesAt_two {p : List UInt8} {off : Nat} (h : off + 2 ≤ p.length) :
    bytesAt p off 2 = [p.getD off 0, p.getD (off + 1) 0] := by
  rw [bytesAt_succ (by omega), bytesAt_one (by omega)]

/-- The four bytes at `off` are the octets of the address there. -/
theorem bytesAt_four {p : List UInt8} {off : Nat} (h : off + 4 ≤ p.length) :
    bytesAt p off 4 = (addrAt p off).octets := by
  rw [bytesAt_succ (by omega), bytesAt_succ (by omega), bytesAt_succ (by omega),
    bytesAt_one (by omega)]
  rfl

/-- A field of a header that was loaded as a whole. -/
theorem bytesAt_bytesAt {p : List UInt8} {off n off' n' : Nat} (h : off' + n' ≤ n) :
    bytesAt (bytesAt p off n) off' n' = bytesAt p (off + off') n' := by
  rw [bytesAt, bytesAt, bytesAt, List.drop_take, List.take_take, List.drop_drop,
    Nat.min_eq_left (by omega)]

/-- The bytes after the first `k`, seen from `k`. -/
theorem getD_drop (p : List UInt8) (k i : Nat) : (p.drop k).getD i 0 = p.getD (k + i) 0 := by
  rw [List.getD_eq_getElem?_getD, List.getElem?_drop, ← List.getD_eq_getElem?_getD]

theorem addrAt_drop (p : List UInt8) (k off : Nat) :
    addrAt (p.drop k) off = addrAt p (k + off) := by
  simp only [addrAt, getD_drop, Nat.add_assoc]

/-! ## Frames -/

/-- The frame's ethertype bytes are those of IPv4. -/
def IsIpv4 (p : List UInt8) : Prop := bytesAt p 12 2 = [0x08, 0x00]

instance (p : List UInt8) : Decidable (IsIpv4 p) := inferInstanceAs (Decidable (_ = _))

/-- A packet as a filter reads it: cut short, not IPv4, or with an address. -/
inductive Reading where
  | truncated
  | other
  | ipv4 (addr : Ipv4Addr)
  deriving DecidableEq, Repr

/-- The reading of an Ethernet frame whose filtered address is at `off`. -/
def frameReading (off : Nat) (p : List UInt8) : Reading :=
  if p.length < 14 then .truncated
  else if IsIpv4 p then (if p.length < 34 then .truncated else .ipv4 (addrAt p off))
  else .other

theorem frameReading_truncated_iff {off : Nat} {p : List UInt8} :
    frameReading off p = .truncated ↔ p.length < 14 ∨ (IsIpv4 p ∧ p.length < 34) := by
  unfold frameReading
  by_cases h14 : p.length < 14
  · simp [h14]
  · by_cases hip : IsIpv4 p
    · by_cases h34 : p.length < 34 <;> simp [h14, hip, h34]
    · simp [h14, hip]

theorem frameReading_other_iff {off : Nat} {p : List UInt8} :
    frameReading off p = .other ↔ 14 ≤ p.length ∧ ¬ IsIpv4 p := by
  unfold frameReading
  by_cases h14 : p.length < 14
  · simp [h14]
  · by_cases hip : IsIpv4 p
    · by_cases h34 : p.length < 34 <;> simp [h14, hip, h34]
    · simp [Nat.not_lt.mp h14, h14, hip]

theorem frameReading_ipv4_iff {off : Nat} {p : List UInt8} {a : Ipv4Addr} :
    frameReading off p = .ipv4 a ↔ 34 ≤ p.length ∧ IsIpv4 p ∧ addrAt p off = a := by
  unfold frameReading
  split
  · rename_i h
    simp only [reduceCtorEq, false_iff]
    omega
  · split
    · rename_i hip
      split
      · rename_i h
        simp only [reduceCtorEq, false_iff]
        omega
      · rename_i h
        simp only [Reading.ipv4.injEq, hip, true_and, Nat.not_lt.mp h]
    · rename_i hip
      simp only [reduceCtorEq, hip, false_and, and_false]

/-! ## The policy -/

/-- What becomes of a packet. -/
inductive Fate where
  | malformed
  | dropped
  | passed
  deriving DecidableEq, Repr

/-- **A blocklist filter**: packets that are not IPv4 pass, packets cut short are refused, and an
address is dropped iff it is blocked. -/
def policy (blocked : Ipv4Addr → Bool) : Reading → Fate
  | .truncated => .malformed
  | .other => .passed
  | .ipv4 a => if blocked a then .dropped else .passed

theorem policy_malformed_iff {blocked : Ipv4Addr → Bool} {r : Reading} :
    policy blocked r = .malformed ↔ r = .truncated := by
  cases r with
  | truncated => simp only [policy]
  | other => simp only [policy, reduceCtorEq]
  | ipv4 a => cases h : blocked a <;> simp [policy, h]

theorem policy_dropped_iff {blocked : Ipv4Addr → Bool} {r : Reading} :
    policy blocked r = .dropped ↔ ∃ a, r = .ipv4 a ∧ blocked a = true := by
  cases r with
  | truncated => simp [policy]
  | other => simp [policy]
  | ipv4 a => cases h : blocked a <;> simp [policy, h]

theorem policy_ne_passed_iff {blocked : Ipv4Addr → Bool} {r : Reading} :
    policy blocked r ≠ .passed ↔ r = .truncated ∨ ∃ a, r = .ipv4 a ∧ blocked a = true := by
  cases r with
  | truncated => simp [policy]
  | other => simp [policy]
  | ipv4 a => cases h : blocked a <;> simp [policy, h]

/-- **A frame is let through** unless it is IPv4 and either cut short or blocked. -/
theorem policy_passed_iff {blocked : Ipv4Addr → Bool} {off : Nat} {p : List UInt8}
    (h14 : 14 ≤ p.length) : policy blocked (frameReading off p) = .passed ↔
      ¬ (IsIpv4 p ∧ (p.length < 34 ∨ blocked (addrAt p off) = true)) := by
  unfold frameReading
  rw [if_neg (Nat.not_lt.mpr h14)]
  by_cases hip : IsIpv4 p
  · by_cases h34 : p.length < 34
    · simp [hip, h34, policy]
    · cases hb : blocked (addrAt p off) <;> simp [hip, h34, policy, hb]
  · simp [hip, policy]

/-- What a program returns to the kernel, and the records it reported. -/
structure Outcome (V L : Type) where
  verdict : V
  reports : List L
  deriving DecidableEq, Repr

/-- **The policy in a program's own terms**: its verdict codes, and one record with the verdict
for each packet whose address it looked up. -/
def filterOutcome {V L : Type} (code : Fate → V) (log : Ipv4Addr → V → L)
    (blocked : Ipv4Addr → Bool) (r : Reading) : Outcome V L :=
  let verdict := code (policy blocked r)
  ⟨verdict, match r with
    | .ipv4 a => [log a verdict]
    | _ => []⟩

theorem filterOutcome_verdict {V L : Type} (code : Fate → V) (log : Ipv4Addr → V → L)
    (blocked : Ipv4Addr → Bool) (r : Reading) :
    (filterOutcome code log blocked r).verdict = code (policy blocked r) := rfl

/-- A filter reports at most once, and what it reports is the address with the verdict. -/
theorem mem_filterOutcome_reports {V L : Type} {code : Fate → V} {log : Ipv4Addr → V → L}
    {blocked : Ipv4Addr → Bool} {r : Reading} {l : L} :
    l ∈ (filterOutcome code log blocked r).reports ↔
      ∃ a, r = .ipv4 a ∧ l = log a (code (policy blocked r)) := by
  cases r <;> simp [filterOutcome]

/-- The outcome for an address, with the branch outside the codes. -/
theorem filterOutcome_ipv4 {V L : Type} (code : Fate → V) (log : Ipv4Addr → V → L)
    (blocked : Ipv4Addr → Bool) (a : Ipv4Addr) :
    filterOutcome code log blocked (.ipv4 a) =
      let action := if blocked a then code .dropped else code .passed
      ⟨action, [log a action]⟩ := by
  simp only [filterOutcome, policy]
  split <;> rfl

/-- The drop code on an address. -/
theorem filterOutcome_drop_iff {V L : Type} {code : Fate → V} {log : Ipv4Addr → V → L}
    {blocked : Ipv4Addr → Bool} {a : Ipv4Addr} (hcode : code .passed ≠ code .dropped) :
    (filterOutcome code log blocked (.ipv4 a)).verdict = code .dropped ↔ blocked a = true := by
  rw [filterOutcome_verdict]
  cases h : blocked a <;> simp [policy, h, hcode]

/-- An outcome tells whether the packet was looked at, if the codes tell a refusal. -/
theorem filterOutcome_eq_other_iff {V L : Type} {code : Fate → V} {log : Ipv4Addr → V → L}
    {b b' : Ipv4Addr → Bool} {r : Reading} (hcode : code .malformed ≠ code .passed) :
    filterOutcome code log b r = filterOutcome code log b' .other ↔ r = .other := by
  cases r with
  | truncated => simp [filterOutcome, policy, hcode]
  | other => simp [filterOutcome, policy]
  | ipv4 a => simp [filterOutcome]

/-- The policy reads its blocklist only as a set. -/
theorem filterOutcome_congr {V L : Type} {code : Fate → V} {log : Ipv4Addr → V → L}
    {b b' : Ipv4Addr → Bool} (h : ∀ a, b a = b' a) (r : Reading) :
    filterOutcome code log b r = filterOutcome code log b' r := by
  cases r <;> simp only [filterOutcome, policy, h]

end AyaBook
