import AyaBook.Blocklist
import AyaBook.Xdp.Context

/-!
# `xdp-drop`

Model of `examples/xdp-drop/xdp-drop-ebpf/src/main.rs`: drop the IPv4 packets whose source address
is in `BLOCKLIST`.

* `xdpFirewall_eq`: **the program computes the blocklist policy** of its packet's source address,
  in either byte order, and logs the address with the verdict.
-/

namespace AyaBook.XdpDrop

open AyaBook.Lib

/-- The record of `info!(&ctx, "SRC: {:i}, ACTION: {}", source, action)`. `{:i}` prints a `u32`
as `Ipv4Addr::from`. -/
structure Log where
  src : Ipv4Addr
  action : UInt32
  deriving DecidableEq, Repr

/-- `try_xdp_firewall`. -/
def tryXdpFirewall (e : Endian) (blocklist : Blocklist) (ctx : XdpContext) : Xdp Log UInt32 := do
  let ethhdr ← ctx.callPtrAt 0 EthHdr.LEN
  let etherType ← ctx.read (ethhdr + EthHdr.etherType) 2
  if u16Load e etherType = EtherType.ipv4 e then
    let ipv4hdr ← ctx.callPtrAt EthHdr.LEN Ipv4Hdr.LEN
    let srcAddr ← ctx.read (ipv4hdr + Ipv4Hdr.srcAddr) 4
    let source := u32FromBe e (u32Load e srcAddr)
    let action := if blockIp e blocklist source then XDP_DROP else XDP_PASS
    Traced.emit (.info ⟨Ipv4Addr.ofU32 source, action⟩)
    pure action
  else
    pure XDP_PASS

/-- `xdp_firewall`. -/
def xdpFirewall (e : Endian) (blocklist : Blocklist) (ctx : XdpContext) : Outcome UInt32 Log :=
  Xdp.outcome (tryXdpFirewall e blocklist ctx)

/-- The program's verdict codes. -/
def code : Fate → UInt32
  | .malformed => XDP_ABORTED
  | .dropped => XDP_DROP
  | .passed => XDP_PASS

theorem code_eq_aborted_iff {x : Fate} : code x = XDP_ABORTED ↔ x = .malformed := by
  cases x <;> decide

theorem code_eq_drop_iff {x : Fate} : code x = XDP_DROP ↔ x = .dropped := by
  cases x <;> decide

theorem code_eq_pass_iff {x : Fate} : code x = XDP_PASS ↔ x = .passed := by
  cases x <;> decide

/-- **`xdp-drop` computes the blocklist policy** of the source address, in either byte order. -/
theorem xdpFirewall_eq (e : Endian) (m : Blocklist) (ctx : XdpContext) :
    xdpFirewall e m ctx =
      filterOutcome code Log.mk (Blocklist.blocks e m) (frameReading 26 ctx.packet) := by
  unfold xdpFirewall tryXdpFirewall frameReading
  rw [outcome_ethernet, outcome_ipv4]
  by_cases h14 : ctx.packet.length < 14
  · rw [if_pos h14, if_pos h14]
    rfl
  rw [if_neg h14, if_neg h14]
  by_cases hip : IsIpv4 ctx.packet
  · rw [if_pos hip, if_pos hip]
    by_cases h34 : ctx.packet.length < 34
    · rw [if_pos h34, if_pos h34]
      rfl
    · rw [if_neg h34, if_neg h34, filterOutcome_ipv4]
      simp only [u32FromBe_octets, Ipv4Addr.ofU32_toU32, outcome_info]
      rfl
  · rw [if_neg hip, if_neg hip]
    rfl

/-- **From the userspace blocklist to the verdict**: after any inserts by a userspace of the
target's byte order, `xdp-drop` aborts exactly on the packets cut short, drops exactly the IPv4
packets whose source address was accepted, passes the rest, and logs the address with the
verdict. -/
theorem xdpFirewall_blocklist (e : Endian) (addrs : List Ipv4Addr) (ctx : XdpContext) :
    let p := ctx.packet
    let out := xdpFirewall e (Blocklist.load e addrs) ctx
    (out.verdict = XDP_ABORTED ↔ p.length < 14 ∨ (IsIpv4 p ∧ p.length < 34)) ∧
    (out.verdict = XDP_DROP ↔
      34 ≤ p.length ∧ IsIpv4 p ∧ addrAt p 26 ∈ Blocklist.accepted e addrs) ∧
    (out.verdict ≠ XDP_ABORTED → out.verdict ≠ XDP_DROP → out.verdict = XDP_PASS) ∧
    ∀ log ∈ out.reports, log.src = addrAt p 26 ∧ log.action = out.verdict := by
  intro p out
  have hout : out = filterOutcome code Log.mk (Blocklist.blocks e (Blocklist.load e addrs))
      (frameReading 26 p) := xdpFirewall_eq e _ ctx
  have hverdict : out.verdict = code (policy (Blocklist.blocks e (Blocklist.load e addrs))
      (frameReading 26 p)) := by rw [hout, filterOutcome_verdict]
  refine ⟨?_, ?_, ?_, ?_⟩
  · rw [hverdict, code_eq_aborted_iff, policy_malformed_iff, frameReading_truncated_iff]
  · rw [hverdict, code_eq_drop_iff, policy_dropped_iff]
    simp only [frameReading_ipv4_iff, Blocklist.blocks_load]
    constructor
    · rintro ⟨a, ⟨h34, hip, rfl⟩, ha⟩
      exact ⟨h34, hip, ha⟩
    · rintro ⟨h34, hip, ha⟩
      exact ⟨_, ⟨h34, hip, rfl⟩, ha⟩
  · rw [hverdict, ne_eq, ne_eq, code_eq_aborted_iff, code_eq_drop_iff, code_eq_pass_iff]
    intro hmalformed hdropped
    cases h : policy (Blocklist.blocks e (Blocklist.load e addrs)) (frameReading 26 p) with
    | malformed => exact absurd h hmalformed
    | dropped => exact absurd h hdropped
    | passed => rfl
  · intro log hlog
    rw [hout, mem_filterOutcome_reports] at hlog
    obtain ⟨a, hr, rfl⟩ := hlog
    exact ⟨(frameReading_ipv4_iff.mp hr).2.2.symm, hverdict.symm⟩

end AyaBook.XdpDrop
