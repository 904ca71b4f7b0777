import AyaBook.Egress.CgroupSkb
import AyaBook.Egress.Tc

/-!
# The two egress filters implement one policy

`tc-egress` loads whole headers from the Ethernet header on, `cgroup-skb-egress` trusts
`__sk_buff.protocol` and loads four bytes from the network header on, and their verdict codes
differ. On a little-endian target, the one both userspaces embed an object for, they refuse the
same frames.
-/

namespace AyaBook

open AyaBook.Lib

namespace TcEgress

theorem code_eq_shot_iff {x : Fate} : code x = TC_ACT_SHOT ↔ x ≠ .passed := by
  cases x <;> decide

end TcEgress

namespace CgroupSkbEgress

theorem code_eq_zero_iff {x : Fate} : code x = 0 ↔ x ≠ .passed := by
  cases x <;> decide

end CgroupSkbEgress

/-- **One policy**: with the same addresses in both blocklists, `tc-egress` shoots a frame iff
`cgroup-skb-egress` refuses it, iff the frame is IPv4 and either too short for its destination
address or going to a blocked one; both let every other frame through. -/
theorem egress_filters_agree (addrs : List Ipv4Addr) (f : EthFrame) (loadError loadError' : Int64)
    (taken : Bool) :
    let m := Blocklist.load .little addrs
    let tc := (TcEgress.tcEgress .little m (f.atLink loadError)).verdict
    let cgroup :=
      (CgroupSkbEgress.cgroupSkbEgress .little m taken (f.atNetwork loadError')).verdict
    let refused := bytesAt f.bytes 12 2 = [0x08, 0x00] ∧
      (f.bytes.length < 34 ∨ addrAt f.bytes 30 ∈ Blocklist.accepted .little addrs)
    (tc = TcEgress.TC_ACT_SHOT ↔ cgroup = 0) ∧ (tc = TcEgress.TC_ACT_SHOT ↔ refused) ∧
    (cgroup = 0 ↔ refused) ∧ (¬ refused → tc = TcEgress.TC_ACT_PIPE ∧ cgroup = 1) := by
  intro m tc cgroup refused
  have htc : tc = TcEgress.code (policy (Blocklist.blocks .little m) (frameReading 30 f.bytes)) :=
    congrArg Outcome.verdict (TcEgress.tcEgress_eq .little m (f.atLink loadError))
  have hcgroup : cgroup =
      CgroupSkbEgress.code (policy (Blocklist.blocks .little m) (frameReading 30 f.bytes)) := by
    show (CgroupSkbEgress.cgroupSkbEgress .little m taken (f.atNetwork loadError')).verdict = _
    rw [CgroupSkbEgress.cgroupSkbEgress_eq, CgroupSkbEgress.skbReading_atNetwork,
      filterOutcome_verdict]
  have hpolicy : policy (Blocklist.blocks .little m) (frameReading 30 f.bytes) = .passed ↔
      ¬ refused := by
    rw [policy_passed_iff f.header, Blocklist.blocks_load]
    exact Iff.rfl
  have hshot : tc = TcEgress.TC_ACT_SHOT ↔ refused := by
    rw [htc, TcEgress.code_eq_shot_iff, ne_eq, hpolicy, not_not]
  have hzero : cgroup = 0 ↔ refused := by
    rw [hcgroup, CgroupSkbEgress.code_eq_zero_iff, ne_eq, hpolicy, not_not]
  refine ⟨hshot.trans hzero.symm, hshot, hzero, fun h => ?_⟩
  rw [htc, hcgroup, hpolicy.mpr h]
  exact ⟨rfl, rfl⟩

end AyaBook
