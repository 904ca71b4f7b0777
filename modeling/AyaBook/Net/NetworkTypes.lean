import AyaBook.Rust

/-!
# What the programs use of `network-types` 0.0.4

The crate is not in the repository. The programs rely on the size of each header (`LEN`,
`mem::size_of`), on the offset of each field they read and on the values of three enum variants.
`EtherType` is a `u16` enum whose variants are written `0x…_u16.to_be()`, so that matching a
variant compares the two bytes as they lie in the packet; `IpProto` is a `u8` enum.
-/

namespace AyaBook

open AyaBook.Lib

/-! ## `eth` -/

/-- `EthHdr::LEN`. -/
def EthHdr.LEN : Nat := 14

/-- The offset of `EthHdr::ether_type`, two bytes. -/
def EthHdr.etherType : Nat := 12

/-- `EtherType::Ipv4`. -/
def EtherType.ipv4 (e : Endian) : UInt16 := u16ToBe e 0x0800

/-! ## `ip` -/

/-- `Ipv4Hdr::LEN`, the header without options. -/
def Ipv4Hdr.LEN : Nat := 20

/-- The offset of `Ipv4Hdr::proto`, one byte. -/
def Ipv4Hdr.proto : Nat := 9

/-- The offset of `Ipv4Hdr::src_addr`, four bytes. -/
def Ipv4Hdr.srcAddr : Nat := 12

/-- The offset of `Ipv4Hdr::dst_addr`, four bytes. -/
def Ipv4Hdr.dstAddr : Nat := 16

/-- `IpProto::Tcp`. -/
def IpProto.tcp : UInt8 := 6

/-- `IpProto::Udp`. -/
def IpProto.udp : UInt8 := 17

/-! ## `tcp` and `udp` -/

/-- `TcpHdr::LEN`, the header without options. -/
def TcpHdr.LEN : Nat := 20

/-- The offset of `TcpHdr::source`, two bytes. -/
def TcpHdr.source : Nat := 0

/-- `UdpHdr::LEN`. -/
def UdpHdr.LEN : Nat := 8

/-- The offset of `UdpHdr::source`, two bytes. -/
def UdpHdr.source : Nat := 0

/-- **Matching `EtherType::Ipv4`** compares the bytes, in either byte order. -/
theorem u16Load_eq_ipv4 (e : Endian) {bs : List UInt8} (h : bs.length = 2) :
    u16Load e bs = EtherType.ipv4 e ↔ bs = [0x08, 0x00] := by
  have hval : (0x0800 : UInt16) = u16Load .big [0x08, 0x00] := by decide
  rw [EtherType.ipv4, hval, u16Load_eq_toBe e h rfl]

end AyaBook
