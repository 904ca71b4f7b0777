import AyaBook.Lib.ReprC

/-!
# `PacketLog`

Model of `examples/cgroup-skb-egress/cgroup-skb-egress-common/src/lib.rs`, the record the program
and its userspace share. The program sends the struct's raw bytes; userspace reads them back
through an unaligned pointer.

* `readUnaligned_toBytes`: **what was sent is read back**, whatever follows it in the buffer.
-/

namespace AyaBook

open AyaBook.Lib

/-- `PacketLog`. -/
structure PacketLog where
  ipv4Address : UInt32
  action : Int32
  deriving DecidableEq, Repr

namespace PacketLog

/-- The fields of the `repr(C)` struct. -/
inductive Field where
  | ipv4Address
  | action
  deriving DecidableEq, Repr

/-- `u32` and `i32`. -/
def layout : Field → Layout
  | .ipv4Address => ⟨4, 4⟩
  | .action => ⟨4, 4⟩

/-- The offset of a field. -/
def offset (f : Field) : Nat := offsetOf layout 0 [.ipv4Address, .action] f

/-- The struct's raw bytes; it has no padding. -/
def toBytes (e : Endian) (l : PacketLog) : List UInt8 :=
  u32ToNeBytes e l.ipv4Address ++ i32ToNeBytes e l.action

/-- `(ptr as *const PacketLog).read_unaligned()`. -/
def readUnaligned (e : Endian) (buf : List UInt8) : PacketLog where
  ipv4Address := u32Load e ((buf.drop (offset .ipv4Address)).take 4)
  action := i32Load e ((buf.drop (offset .action)).take 4)

@[simp] theorem length_toBytes (e : Endian) (l : PacketLog) : (l.toBytes e).length = 8 := by
  rw [toBytes, List.length_append, length_u32ToNeBytes, length_i32ToNeBytes]

/-- What each field holds. -/
def field (e : Endian) (l : PacketLog) : Field → List UInt8
  | .ipv4Address => u32ToNeBytes e l.ipv4Address
  | .action => i32ToNeBytes e l.action

/-- **The bytes are those of the struct in memory**, which has no padding. -/
theorem toBytes_eq_raw (e : Endian) (l : PacketLog) (pad : Nat → UInt8) :
    l.toBytes e = raw layout pad (l.field e) [.ipv4Address, .action] := by
  simp [raw, rawFrom, padding, layout, field, toBytes, structOf, endOf, maxAlign, alignUp]

/-- **What was sent is read back**, whatever follows it in the buffer. -/
theorem readUnaligned_toBytes (e : Endian) (l : PacketLog) (rest : List UInt8) :
    readUnaligned e (l.toBytes e ++ rest) = l := by
  have h₁ : (l.toBytes e ++ rest).take 4 = u32ToNeBytes e l.ipv4Address := by
    rw [toBytes, List.append_assoc, List.take_left' (length_u32ToNeBytes e _)]
  have h₂ : ((l.toBytes e ++ rest).drop 4).take 4 = i32ToNeBytes e l.action := by
    rw [toBytes, List.append_assoc, List.drop_left' (length_u32ToNeBytes e _),
      List.take_left' (length_i32ToNeBytes e _)]
  have hoff₁ : offset .ipv4Address = 0 := by decide
  have hoff₂ : offset .action = 4 := by decide
  rw [readUnaligned, hoff₁, hoff₂, List.drop_zero, h₁, h₂, u32Load_toNeBytes, i32Load_toNeBytes]

end PacketLog

end AyaBook
