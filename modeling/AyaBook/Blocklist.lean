import AyaBook.Lib.BoundedMap
import AyaBook.Rust

/-!
# The `BLOCKLIST` map

The three firewalls declare the same map, `HashMap<u32, u32>::with_max_entries(1024, 0)`, and the
same `block_ip`. The kernel stores raw key and value bytes; both sides see a `u32` as its native
bytes. Userspace inserts `u32::from(addr)` with value `0` and flags `0`; the program looks up the
`u32` it read from the packet.

* `blocks_load`: after any inserts by a userspace of the target's byte order, `block_ip` answers
  for an address exactly whether one of its inserts succeeded.
* `accepted_endian`: which inserts succeed does not depend on the byte order.
-/

namespace AyaBook

open AyaBook.Lib

/-- `BLOCKLIST`: native key bytes to native value bytes, at most 1024 keys. -/
abbrev Blocklist := BoundedMap (List UInt8) (List UInt8) 1024

/-- `block_ip`: `BLOCKLIST.get(&address).is_some()`. -/
def blockIp (e : Endian) (m : Blocklist) (address : UInt32) : Bool :=
  (m.get? (u32ToNeBytes e address)).isSome

namespace Blocklist

/-- The key userspace writes for an address: `u32::from(addr)`, native bytes. -/
def key (e : Endian) (addr : Ipv4Addr) : List UInt8 := u32ToNeBytes e addr.toU32

/-- `blocklist.insert(u32::from(addr), 0, 0)`. -/
def insertAddr (e : Endian) (m : Blocklist) (addr : Ipv4Addr) : Option Blocklist :=
  m.insert (key e addr) (u32ToNeBytes e 0)

/-- The map after a sequence of inserts into the empty one, failed inserts included. -/
def load (e : Endian) (addrs : List Ipv4Addr) : Blocklist :=
  BoundedMap.empty.load (key e) (fun _ => u32ToNeBytes e 0) addrs

/-- The addresses whose insert succeeded. -/
def accepted (e : Endian) (addrs : List Ipv4Addr) : List Ipv4Addr :=
  (BoundedMap.empty : Blocklist).accepted (key e) (fun _ => u32ToNeBytes e 0) addrs

/-- The program's view of the map: is `addr` blocked? -/
def blocks (e : Endian) (m : Blocklist) (addr : Ipv4Addr) : Bool := blockIp e m addr.toU32

theorem key_injective (e : Endian) : Function.Injective (key e) :=
  (u32ToNeBytes_injective e).comp Ipv4Addr.toU32_injective

theorem blocks_iff {e : Endian} {m : Blocklist} {addr : Ipv4Addr} :
    blocks e m addr = true ↔ key e addr ∈ m :=
  BoundedMap.get?_isSome

/-- **End to end**: the program blocks exactly the addresses whose insert succeeded. -/
theorem blocks_load {e : Endian} {addrs : List Ipv4Addr} {addr : Ipv4Addr} :
    blocks e (load e addrs) addr = true ↔ addr ∈ accepted e addrs := by
  rw [blocks_iff, load, BoundedMap.key_mem_load (key_injective e)]
  simp only [BoundedMap.not_mem_empty, false_or]
  exact Iff.rfl

/-- Acceptance does not depend on the byte order. -/
theorem accepted_endian (e e' : Endian) (addrs : List Ipv4Addr) :
    accepted e addrs = accepted e' addrs := by
  refine BoundedMap.accepted_congr (key_injective e) (key_injective e') addrs (fun a => ?_) rfl
  simp only [BoundedMap.not_mem_empty]

/-- **The same list blocks the same addresses** on either target. -/
theorem blocks_endian (e e' : Endian) (addrs : List Ipv4Addr) (addr : Ipv4Addr) :
    blocks e (load e addrs) addr = blocks e' (load e' addrs) addr := by
  rw [Bool.eq_iff_iff, blocks_load, blocks_load, accepted_endian e e']

/-- After an insert that succeeds, the address is blocked and every other one is as before. -/
theorem blocks_insertAddr {e : Endian} {m m' : Blocklist} {addr : Ipv4Addr}
    (h : insertAddr e m addr = some m') (x : Ipv4Addr) :
    blocks e m' x = true ↔ x = addr ∨ blocks e m x = true := by
  rw [blocks_iff, blocks_iff, BoundedMap.mem_insert h, (key_injective e).eq_iff]

end Blocklist

end AyaBook
