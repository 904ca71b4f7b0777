import AyaBook.Lib.Traced
import AyaBook.Net.Reading

/-!
# What the kernel shows an egress program

An `SkBuff` is the kernel's view of an outgoing packet: the bytes a program may load, and the
`protocol` field of `__sk_buff`, which holds the two ethertype bytes as a native `u16`. A
classifier is shown the frame from its Ethernet header (`EthFrame.atLink`), a cgroup program from
its network header (`EthFrame.atNetwork`). A program is a `Traced` computation whose events are
the records it reports.
-/

namespace AyaBook

open AyaBook.Lib

/-- `TcContext` and `SkBuffContext`: the visible bytes, the ethertype bytes, and the code a failing
load returns, which no program looks at. -/
structure SkBuff where
  data : List UInt8
  protocolBytes : UInt8 × UInt8
  loadError : Int64

namespace SkBuff

variable (skb : SkBuff)

/-- `(*ctx.skb.skb).protocol`: the ethertype bytes as a native `u16`, zero-extended. -/
def protocol (e : Endian) : UInt32 :=
  (u16Load e [skb.protocolBytes.1, skb.protocolBytes.2]).toUInt32

/-- `ctx.load::<T>(offset)` with `n = size_of::<T>()`: `bpf_skb_load_bytes`. -/
def load (offset n : Nat) : Except Int64 (List UInt8) :=
  if offset + n ≤ skb.data.length then .ok (bytesAt skb.data offset n) else .error skb.loadError

theorem load_eq_ok {offset n : Nat} (h : offset + n ≤ skb.data.length) :
    skb.load offset n = .ok (bytesAt skb.data offset n) := if_pos h

theorem load_eq_error {offset n : Nat} (h : skb.data.length < offset + n) :
    skb.load offset n = .error skb.loadError := if_neg (Nat.not_le.mpr h)

end SkBuff

/-- The entry point's `match`: an error becomes the verdict `err`. -/
def skbOutcome {L E : Type} (err : Int32) (x : Traced L E Int32) : Outcome Int32 L :=
  ⟨x.handle fun _ => err, x.trace⟩

/-! ## Frames -/

/-- An outgoing Ethernet frame: at least its header. -/
structure EthFrame where
  bytes : List UInt8
  header : 14 ≤ bytes.length

namespace EthFrame

variable (f : EthFrame)

/-- The frame's ethertype bytes. -/
def protocolBytes : UInt8 × UInt8 := (f.bytes.getD 12 0, f.bytes.getD 13 0)

/-- The frame as a classifier sees it. -/
def atLink (loadError : Int64) : SkBuff := ⟨f.bytes, f.protocolBytes, loadError⟩

/-- The frame as a cgroup program sees it. -/
def atNetwork (loadError : Int64) : SkBuff := ⟨f.bytes.drop 14, f.protocolBytes, loadError⟩

@[simp] theorem data_atLink (loadError : Int64) : (f.atLink loadError).data = f.bytes := rfl

theorem bytesAt_protocol : bytesAt f.bytes 12 2 = [f.protocolBytes.1, f.protocolBytes.2] :=
  bytesAt_two f.header

/-- The frame is IPv4 iff its ethertype bytes are `08 00`. -/
theorem isIpv4_iff : IsIpv4 f.bytes ↔ f.protocolBytes = (0x08, 0x00) := by
  rw [IsIpv4, bytesAt_protocol, Prod.ext_iff]
  simp only [List.cons.injEq, and_true]

end EthFrame

end AyaBook
