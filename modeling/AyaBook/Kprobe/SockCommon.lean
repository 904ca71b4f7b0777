import AyaBook.Lib.ReprC
import AyaBook.Net.Reading

/-!
# `sock_common`

The part of a kernel socket that `examples/kprobetcp/kprobetcp-ebpf` reads, laid out as in its
`binding.rs`: structs and unions inside structs, named as there. `Socket.bytes` is a socket as the
kernel keeps it: the family natively, the addresses in network order, and anything in the fields
the program does not name.

* `Socket.length_bytes`: a `sock_common` takes 136 bytes.
* `Socket.bytesAt_field`: **what the kernel wrote to a field is read at its offset**.
-/

namespace AyaBook.Kprobetcp

open AyaBook.Lib

/-! ## Types of the binding -/

/-- `c_uchar`, `u8`. -/
def u8 : Layout := ⟨1, 1⟩

/-- `c_ushort`, `__u16`, `__be16`. -/
def u16 : Layout := ⟨2, 2⟩

/-- `c_int`, `c_uint`, `__be32`, `u32_`. -/
def u32 : Layout := ⟨4, 4⟩

/-- `c_ulong`, `__u64`, `s64`. -/
def u64 : Layout := ⟨8, 8⟩

/-- `*mut T`. -/
def pointer : Layout := ⟨8, 8⟩

/-- `hlist_node`. -/
def hlistNode : Layout := structOf [pointer, pointer]

/-- `hlist_nulls_node`. -/
def hlistNullsNode : Layout := structOf [pointer, pointer]

/-- `in6_addr__bindgen_ty_1`: `u6_addr8`, `u6_addr16` and `u6_addr32`. -/
def in6AddrUnion : Layout := unionOf [arrayOf u8 16, arrayOf u16 8, arrayOf u32 4]

/-- `in6_addr`. -/
def in6Addr : Layout := structOf [in6AddrUnion]

/-- The fields of `sock_common__bindgen_ty_1__bindgen_ty_1`. -/
inductive AddrPair where
  | skcDaddr
  | skcRcvSaddr
  deriving DecidableEq, Repr

namespace AddrPair

/-- Both are `__be32`. -/
def layout : AddrPair → Layout
  | skcDaddr => u32
  | skcRcvSaddr => u32

/-- The struct's fields. -/
def fields : List AddrPair := [skcDaddr, skcRcvSaddr]

/-- `offset_of!`. -/
def offset (f : AddrPair) : Nat := offsetOf layout 0 fields f

end AddrPair

/-- The fields of `sock_common`, in order. -/
inductive SockCommon where
  | anon1
  | anon2
  | anon3
  | skcFamily
  | skcState
  | bitfieldAlign1
  | bitfield1
  | skcBoundDevIf
  | anon4
  | skcProt
  | skcNet
  | skcV6Daddr
  | skcV6RcvSaddr
  | skcCookie
  | anon5
  | skcDontcopyBegin
  | anon6
  | skcTxQueueMapping
  | skcRxQueueMapping
  | anon7
  | skcRefcnt
  | skcDontcopyEnd
  | anon8
  deriving DecidableEq, Repr

namespace SockCommon

/-- The fields' types, `sock_common__bindgen_ty_i` for the anonymous ones. -/
def layout : SockCommon → Layout
  | anon1 => unionOf [u64, structOf (AddrPair.fields.map AddrPair.layout)]
  | anon2 => unionOf [u32, arrayOf u16 2]
  | anon3 => unionOf [u32, structOf [u16, u16]]
  | skcFamily => u16
  | skcState => u8
  | bitfieldAlign1 => arrayOf u8 0
  | bitfield1 => structOf [arrayOf u8 1]
  | skcBoundDevIf => u32
  | anon4 => unionOf [hlistNode, hlistNode]
  | skcProt => pointer
  | skcNet => structOf [pointer]
  | skcV6Daddr => in6Addr
  | skcV6RcvSaddr => in6Addr
  | skcCookie => structOf [u64]
  | anon5 => unionOf [u64, pointer, pointer]
  | skcDontcopyBegin => structOf [arrayOf u32 0]
  | anon6 => unionOf [hlistNode, hlistNullsNode]
  | skcTxQueueMapping => u16
  | skcRxQueueMapping => u16
  | anon7 => unionOf [u32, u32, u32]
  | skcRefcnt => structOf [structOf [u32]]
  | skcDontcopyEnd => structOf [arrayOf u32 0]
  | anon8 => unionOf [u32, u32, u32]

/-- The struct's fields. -/
def fields : List SockCommon :=
  [anon1, anon2, anon3, skcFamily, skcState, bitfieldAlign1, bitfield1, skcBoundDevIf, anon4,
    skcProt, skcNet, skcV6Daddr, skcV6RcvSaddr, skcCookie, anon5, skcDontcopyBegin, anon6,
    skcTxQueueMapping, skcRxQueueMapping, anon7, skcRefcnt, skcDontcopyEnd, anon8]

/-- The offset of a field. -/
def offset (f : SockCommon) : Nat := offsetOf layout 0 fields f

/-- `size_of::<sock_common>()`. -/
def LEN : Nat := (structOf (fields.map layout)).size

example : LEN = 136 := by decide

theorem mem_fields (f : SockCommon) : f ∈ fields := by cases f <;> decide

theorem align_pos (f : SockCommon) : 0 < (layout f).align := by cases f <;> decide

/-- Every field is inside the struct. -/
theorem offset_add_size_le (f : SockCommon) : offset f + (layout f).size ≤ LEN :=
  offsetOf_add_size_le align_pos (mem_fields f)

end SockCommon

/-! ## A socket in memory -/

/-- An IPv6 address: its sixteen bytes in network order. -/
structure Ipv6Addr where
  octets : List UInt8
  length_eq : octets.length = 16

/-- A socket as far as the program is concerned. -/
structure Socket where
  family : UInt16
  daddr : Ipv4Addr
  rcvSaddr : Ipv4Addr
  v6Daddr : Ipv6Addr
  v6RcvSaddr : Ipv6Addr

/-- Bytes for all fields, as many as each takes, and for the padding. -/
structure Rest where
  field : SockCommon → List UInt8
  length_field : ∀ f, (field f).length = (SockCommon.layout f).size
  pad : Nat → UInt8

namespace Socket

variable (e : Endian) (s : Socket) (rest : Rest)

/-- What the kernel keeps in a field: the family as a native `u16`, the addresses as they go over
the wire. -/
def field : SockCommon → List UInt8
  | .anon1 => s.daddr.octets ++ s.rcvSaddr.octets
  | .skcFamily => e.toBytes 2 s.family.toNat
  | .skcV6Daddr => s.v6Daddr.octets
  | .skcV6RcvSaddr => s.v6RcvSaddr.octets
  | f => rest.field f

/-- **The socket's `sock_common` in memory.** -/
def bytes : List UInt8 := raw SockCommon.layout rest.pad (s.field e rest) SockCommon.fields

theorem length_field (f : SockCommon) :
    (s.field e rest f).length = (SockCommon.layout f).size := by
  cases f with
  | anon1 => rfl
  | skcFamily => exact length_toBytes e 2 _
  | skcV6Daddr => exact s.v6Daddr.length_eq
  | skcV6RcvSaddr => exact s.v6RcvSaddr.length_eq
  | _ => exact rest.length_field _

theorem length_bytes : (s.bytes e rest).length = SockCommon.LEN :=
  length_raw SockCommon.align_pos (s.length_field e rest)

/-- **What the kernel wrote to a field is read at its offset.** -/
theorem bytesAt_field (f : SockCommon) :
    bytesAt (s.bytes e rest) (SockCommon.offset f) (SockCommon.layout f).size =
      s.field e rest f :=
  bytes_raw SockCommon.align_pos (s.length_field e rest) (SockCommon.mem_fields f)

end Socket

end AyaBook.Kprobetcp
