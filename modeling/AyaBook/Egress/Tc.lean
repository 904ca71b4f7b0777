import AyaBook.Blocklist
import AyaBook.Egress.SkBuff

/-!
# `tc-egress`

Model of `examples/tc-egress/tc-egress-ebpf/src/main.rs`: a classifier that shoots the outgoing
IPv4 packets whose destination address is in `BLOCKLIST`.

* `tcEgress_eq`: **the program computes the blocklist policy** of its frame's destination address,
  in either byte order.
-/

namespace AyaBook.TcEgress

open AyaBook.Lib

/-- `TC_ACT_SHOT`. -/
def TC_ACT_SHOT : Int32 := 2

/-- `TC_ACT_PIPE`. -/
def TC_ACT_PIPE : Int32 := 3

/-- The record of `info!(&ctx, "DEST {:i}, ACTION {}", destination, action)`. -/
structure Log where
  dest : Ipv4Addr
  action : Int32
  deriving DecidableEq, Repr

/-- `ctx.load(offset).map_err(|_| ())?`. -/
def load (ctx : SkBuff) (offset n : Nat) : Traced Log Unit (List UInt8) :=
  .ofExcept ((ctx.load offset n).mapError fun _ => ())

/-- `try_tc_egress`. Each header is loaded as a whole, then its field is taken out. -/
def tryTcEgress (e : Endian) (blocklist : Blocklist) (ctx : SkBuff) : Traced Log Unit Int32 := do
  let ethhdr ← load ctx 0 EthHdr.LEN
  if u16Load e (bytesAt ethhdr EthHdr.etherType 2) = EtherType.ipv4 e then
    let ipv4hdr ← load ctx EthHdr.LEN Ipv4Hdr.LEN
    let destination := u32FromBe e (u32Load e (bytesAt ipv4hdr Ipv4Hdr.dstAddr 4))
    let action := if blockIp e blocklist destination then TC_ACT_SHOT else TC_ACT_PIPE
    Traced.emit ⟨Ipv4Addr.ofU32 destination, action⟩
    pure action
  else
    pure TC_ACT_PIPE

/-- `tc_egress`. -/
def tcEgress (e : Endian) (blocklist : Blocklist) (ctx : SkBuff) : Outcome Int32 Log :=
  skbOutcome TC_ACT_SHOT (tryTcEgress e blocklist ctx)

/-- The program's verdict codes: a packet cut short is shot as a blocked one is. -/
def code : Fate → Int32
  | .malformed => TC_ACT_SHOT
  | .dropped => TC_ACT_SHOT
  | .passed => TC_ACT_PIPE

/-- A header inside the packet: go on with its bytes. -/
theorem outcome_load {ctx : SkBuff} {offset n : Nat} (h : offset + n ≤ ctx.data.length)
    (k : List UInt8 → Traced Log Unit Int32) :
    skbOutcome TC_ACT_SHOT (load ctx offset n >>= k) =
      skbOutcome TC_ACT_SHOT (k (bytesAt ctx.data offset n)) := by
  rw [load, ctx.load_eq_ok h]
  rfl

/-- A header past the packet's end: shoot. -/
theorem outcome_load_error {ctx : SkBuff} {offset n : Nat} (h : ctx.data.length < offset + n)
    (k : List UInt8 → Traced Log Unit Int32) :
    skbOutcome TC_ACT_SHOT (load ctx offset n >>= k) = ⟨TC_ACT_SHOT, []⟩ := by
  rw [load, ctx.load_eq_error h]
  rfl

/-- **`tc-egress` computes the blocklist policy** of the destination address, in either byte
order. -/
theorem tcEgress_eq (e : Endian) (m : Blocklist) (ctx : SkBuff) :
    tcEgress e m ctx =
      filterOutcome code Log.mk (Blocklist.blocks e m) (frameReading 30 ctx.data) := by
  unfold tcEgress tryTcEgress frameReading
  by_cases h14 : ctx.data.length < 14
  · rw [outcome_load_error h14, if_pos h14]
    rfl
  have hle : 0 + EthHdr.LEN ≤ ctx.data.length := Nat.not_lt.mp h14
  have hfield : bytesAt (bytesAt ctx.data 0 EthHdr.LEN) EthHdr.etherType 2 =
      bytesAt ctx.data 12 2 := bytesAt_bytesAt (by decide)
  have hmatch : u16Load e (bytesAt ctx.data 12 2) = EtherType.ipv4 e ↔ IsIpv4 ctx.data :=
    u16Load_eq_ipv4 e (length_bytesAt (Nat.not_lt.mp h14))
  rw [outcome_load hle, if_neg h14, hfield]
  by_cases hip : IsIpv4 ctx.data
  · rw [if_pos (hmatch.mpr hip), if_pos hip]
    by_cases h34 : ctx.data.length < 34
    · rw [outcome_load_error h34, if_pos h34]
      rfl
    · have hle : EthHdr.LEN + Ipv4Hdr.LEN ≤ ctx.data.length := Nat.not_lt.mp h34
      have hdst : bytesAt (bytesAt ctx.data EthHdr.LEN Ipv4Hdr.LEN) Ipv4Hdr.dstAddr 4 =
          (addrAt ctx.data 30).octets := by
        rw [bytesAt_bytesAt (by decide)]
        exact bytesAt_four (Nat.not_lt.mp h34)
      rw [outcome_load hle, if_neg h34, filterOutcome_ipv4]
      simp only [hdst, u32FromBe_octets, Ipv4Addr.ofU32_toU32]
      rfl
  · rw [if_neg fun h => hip (hmatch.mp h), if_neg hip]
    rfl

end AyaBook.TcEgress
