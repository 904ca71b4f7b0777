import AyaBook.Blocklist
import AyaBook.Egress.PacketLog
import AyaBook.Egress.SkBuff

/-!
# `cgroup-skb-egress`

Model of `examples/cgroup-skb-egress/cgroup-skb-egress-ebpf/src/main.rs`: a cgroup program that
refuses the outgoing IPv4 packets whose destination address is in `BLOCKLIST`, and sends a
`PacketLog` for each packet it looked up.

The program recognises IPv4 by `protocol != ETH_P_IP` with `ETH_P_IP = 8`, a native `u32`.

* `cgroupSkbEgress_eq`: **the program computes the blocklist policy** of its own reading of the
  packet (`skbReading`), whatever `EVENTS.output` does.
* `skbReading_atNetwork`: on a little-endian target that reading is the frame's.
-/

namespace AyaBook.CgroupSkbEgress

open AyaBook.Lib

/-- `const ETH_P_IP: u32 = 8`. -/
def ETH_P_IP : UInt32 := 8

/-- The fields of `bindings::iphdr`, in order; `bitfield` is the byte of version and IHL. -/
inductive Iphdr where
  | bitfieldAlign
  | bitfield
  | tos
  | totLen
  | id
  | fragOff
  | ttl
  | protocol
  | check
  | saddr
  | daddr
  deriving DecidableEq, Repr

namespace Iphdr

/-- `[u8; 0]`, `[u8; 1]`, `__u8`, `__be16` and `__be32`. -/
def layout : Iphdr → Layout
  | bitfieldAlign => ⟨0, 1⟩
  | bitfield | tos | ttl | protocol => ⟨1, 1⟩
  | totLen | id | fragOff | check => ⟨2, 2⟩
  | saddr | daddr => ⟨4, 4⟩

/-- The struct's fields. -/
def fields : List Iphdr :=
  [bitfieldAlign, bitfield, tos, totLen, id, fragOff, ttl, protocol, check, saddr, daddr]

/-- `offset_of!(iphdr, f)`. -/
def offset (f : Iphdr) : Nat := offsetOf layout 0 fields f

end Iphdr

/-- A record handed to `EVENTS.output`, and whether the kernel took it. -/
structure Sent where
  entry : PacketLog
  taken : Bool
  deriving DecidableEq, Repr

/-- `EVENTS.output(&ctx, &log_entry, 0)`. Its result is not looked at. -/
def output (taken : Bool) (entry : PacketLog) : Traced Sent Int64 Unit := .emit ⟨entry, taken⟩

/-- `try_cgroup_skb_egress`. -/
def tryCgroupSkbEgress (e : Endian) (blocklist : Blocklist) (taken : Bool) (ctx : SkBuff) :
    Traced Sent Int64 Int32 := do
  let protocol := ctx.protocol e
  if protocol ≠ ETH_P_IP then
    pure 1
  else
    let daddr ← .ofExcept (ctx.load (Iphdr.offset .daddr) 4)
    let destination := u32FromBe e (u32Load e daddr)
    let action := if blockIp e blocklist destination then 0 else 1
    output taken ⟨destination, action⟩
    pure action

/-- `cgroup_skb_egress`. -/
def cgroupSkbEgress (e : Endian) (blocklist : Blocklist) (taken : Bool) (ctx : SkBuff) :
    Outcome Int32 Sent :=
  skbOutcome 0 (tryCgroupSkbEgress e blocklist taken ctx)

/-! ## The program on bytes -/

/-- The program's verdict codes: a packet cut short is refused as a blocked one is. -/
def code : Fate → Int32
  | .malformed => 0
  | .dropped => 0
  | .passed => 1

/-- The record for an address and its action. -/
def record (taken : Bool) (a : Ipv4Addr) (action : Int32) : Sent := ⟨⟨a.toU32, action⟩, taken⟩

/-- The packet as the program reads it, through its own notion of IPv4. -/
def skbReading (e : Endian) (skb : SkBuff) : Reading :=
  if skb.protocol e = ETH_P_IP then
    if skb.data.length < 20 then .truncated else .ipv4 (addrAt skb.data 16)
  else .other

theorem offset_daddr : Iphdr.offset .daddr = 16 := by decide

/-- **`cgroup-skb-egress` computes the blocklist policy** of its reading of the packet, whatever
`EVENTS.output` does. -/
theorem cgroupSkbEgress_eq (e : Endian) (m : Blocklist) (taken : Bool) (skb : SkBuff) :
    cgroupSkbEgress e m taken skb =
      filterOutcome code (record taken) (Blocklist.blocks e m) (skbReading e skb) := by
  unfold cgroupSkbEgress tryCgroupSkbEgress skbReading
  by_cases hproto : skb.protocol e = ETH_P_IP
  · simp only [hproto, ne_eq, not_true_eq_false, if_false, if_true]
    by_cases h20 : skb.data.length < 20
    · rw [if_pos h20, offset_daddr, skb.load_eq_error h20]
      rfl
    · have hle : 16 + 4 ≤ skb.data.length := Nat.not_lt.mp h20
      rw [if_neg h20, offset_daddr, skb.load_eq_ok hle, bytesAt_four hle, filterOutcome_ipv4]
      simp only [Traced.ofExcept_eq, Traced.mk_ok_bind, u32FromBe_octets]
      rfl
  · simp only [hproto, ne_eq, not_false_eq_true, if_true, if_false]
    rfl

/-! ## What `ETH_P_IP` matches -/

/-- The ethertype bytes that `protocol` compares equal to `8` for. -/
def ethPIpBytes : Endian → UInt8 × UInt8
  | .little => (0x08, 0x00)
  | .big => (0x00, 0x08)

/-- The comparison on bytes: it depends on the target's byte order. -/
theorem protocol_iff (e : Endian) (skb : SkBuff) :
    skb.protocol e = ETH_P_IP ↔ skb.protocolBytes = ethPIpBytes e := by
  have hval : ETH_P_IP = (u16Load e [(ethPIpBytes e).1, (ethPIpBytes e).2]).toUInt32 := by
    cases e <;> decide
  rw [SkBuff.protocol, hval, ← UInt32.toNat_inj, UInt16.toNat_toUInt32, UInt16.toNat_toUInt32,
    UInt16.toNat_inj, u16Load_inj e rfl rfl, Prod.ext_iff]
  simp only [List.cons.injEq, and_true]

theorem skbReading_other_iff {e : Endian} {skb : SkBuff} :
    skbReading e skb = .other ↔ skb.protocolBytes ≠ ethPIpBytes e := by
  unfold skbReading
  rw [ne_eq, ← protocol_iff]
  split
  · rename_i hproto
    split <;> simp [hproto]
  · rename_i hproto
    simp [hproto]

theorem skbReading_ipv4_iff {e : Endian} {skb : SkBuff} {a : Ipv4Addr} :
    skbReading e skb = .ipv4 a ↔
      skb.protocolBytes = ethPIpBytes e ∧ 20 ≤ skb.data.length ∧ addrAt skb.data 16 = a := by
  unfold skbReading
  rw [← protocol_iff]
  split
  · rename_i hproto
    split
    · rename_i h20
      simp only [reduceCtorEq, hproto, true_and, false_iff]
      omega
    · rename_i h20
      simp only [Reading.ipv4.injEq, hproto, true_and, Nat.not_lt.mp h20]
  · rename_i hproto
    simp only [reduceCtorEq, hproto, false_and]

/-- **On a little-endian target the program's reading is the frame's.** -/
theorem skbReading_atNetwork (f : EthFrame) (loadError : Int64) :
    skbReading .little (f.atNetwork loadError) = frameReading 30 f.bytes := by
  have hheader := f.header
  have hlen : (f.atNetwork loadError).data.length = f.bytes.length - 14 := List.length_drop
  unfold skbReading frameReading
  rw [if_neg (Nat.not_lt.mpr hheader)]
  by_cases hip : IsIpv4 f.bytes
  · have hproto := (protocol_iff .little (f.atNetwork loadError)).mpr (f.isIpv4_iff.mp hip)
    rw [if_pos hproto, if_pos hip, hlen]
    by_cases h34 : f.bytes.length < 34
    · rw [if_pos (by omega), if_pos h34]
    · rw [if_neg (by omega), if_neg h34]
      exact congrArg Reading.ipv4 (addrAt_drop f.bytes 14 16)
  · have hproto : (f.atNetwork loadError).protocol .little ≠ ETH_P_IP := fun h =>
      hip (f.isIpv4_iff.mpr ((protocol_iff .little _).mp h))
    rw [if_neg hproto, if_neg hip]

end AyaBook.CgroupSkbEgress
