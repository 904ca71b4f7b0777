import AyaBook.Kprobe.SockCommon
import AyaBook.Lib.Traced

/-!
# `kprobetcp`

Model of `examples/kprobetcp/kprobetcp-ebpf/src/main.rs`, which is attached to `tcp_connect`: it
copies the `sock_common` of the socket it is given out of kernel memory and logs the socket's two
addresses.

A copy may fail, with the kernel's negative error; `try_into` of that error fails too, so the
function returns 1. The compiled entry point does not: the wrapper that `#[kprobe]` puts around the
function discards what it returns.

* `kprobetcp_logs_socket`: **the addresses logged are the socket's**, in either byte order and
  whatever else the socket holds.
* `kprobetcp_verdict`: what the function returns for any argument and any memory.
-/

namespace AyaBook.Kprobetcp

open AyaBook.Lib

/-- Kernel memory as `bpf_probe_read_kernel` shows it: a whole copy, or a negative error. -/
structure Kernel where
  probeRead : Nat → Nat → Except Int64 (List UInt8)
  length_eq : ∀ {addr n : Nat} {bs : List UInt8}, probeRead addr n = .ok bs → bs.length = n
  error_neg : ∀ {addr n : Nat} {err : Int64}, probeRead addr n = .error err → err.toInt < 0

/-- `ProbeContext`: what `ctx.arg(0)` gives. -/
structure ProbeContext where
  arg0 : Option Nat

/-- `const AF_INET: u16`. -/
def AF_INET : UInt16 := 2

/-- `const AF_INET6: u16`. -/
def AF_INET6 : UInt16 := 10

/-- The records of the two `info!`s; `:i` shows a `u32` and sixteen bytes as addresses. -/
inductive Log where
  | inet (src dest : Ipv4Addr)
  | inet6 (src dest : List UInt8)
  deriving DecidableEq, Repr

/-- The offset of `__sk_common`, the first field of `sock`. -/
def skCommonOffset : Nat := 0

/-- The bytes of `skc_rcv_saddr` or `skc_daddr`, inside the first union of `sock_common`. -/
def addrBytes (skCommon : List UInt8) (f : AddrPair) : List UInt8 :=
  bytesAt skCommon (SockCommon.offset .anon1 + f.offset) 4

/-- `try_kprobetcp`. -/
def tryKprobetcp (e : Endian) (k : Kernel) (ctx : ProbeContext) : Traced Log Int64 UInt32 := do
  let sock ← match ctx.arg0 with
    | some sock => pure sock
    | none => Traced.fail 1
  let skCommon ← Traced.ofExcept (k.probeRead (sock + skCommonOffset) SockCommon.LEN)
  let family := u16Load e (bytesAt skCommon (SockCommon.offset .skcFamily) 2)
  if family = AF_INET then
    let srcAddr := u32FromBe e (u32Load e (addrBytes skCommon .skcRcvSaddr))
    let destAddr := u32FromBe e (u32Load e (addrBytes skCommon .skcDaddr))
    Traced.emit (.inet (Ipv4Addr.ofU32 srcAddr) (Ipv4Addr.ofU32 destAddr))
    pure 0
  else if family = AF_INET6 then
    let srcAddr := bytesAt skCommon (SockCommon.offset .skcV6RcvSaddr) 16
    let destAddr := bytesAt skCommon (SockCommon.offset .skcV6Daddr) 16
    Traced.emit (.inet6 srcAddr destAddr)
    pure 0
  else
    pure 0

/-- `kprobetcp`, as it is written, under `#[kprobe]`. -/
def kprobetcp (e : Endian) (k : Kernel) (ctx : ProbeContext) : Outcome UInt32 Log :=
  let x := tryKprobetcp e k ctx
  ⟨x.handle fun ret => (u32TryFrom ret).getD 1, x.trace⟩

/-! ## The program on bytes -/

/-- What the program logs for the bytes it has copied. -/
def records (e : Endian) (skCommon : List UInt8) : List Log :=
  let family := u16Load e (bytesAt skCommon (SockCommon.offset .skcFamily) 2)
  if family = AF_INET then
    [.inet (Ipv4Addr.ofU32 (u32FromBe e (u32Load e (addrBytes skCommon .skcRcvSaddr))))
      (Ipv4Addr.ofU32 (u32FromBe e (u32Load e (addrBytes skCommon .skcDaddr))))]
  else if family = AF_INET6 then
    [.inet6 (bytesAt skCommon (SockCommon.offset .skcV6RcvSaddr) 16)
      (bytesAt skCommon (SockCommon.offset .skcV6Daddr) 16)]
  else []

/-- The bytes the program copies, if it gets that far. -/
def copied (k : Kernel) (ctx : ProbeContext) : Option (List UInt8) :=
  match ctx.arg0 with
  | none => none
  | some sock => (k.probeRead (sock + skCommonOffset) SockCommon.LEN).toOption

/-- **Every call**: 0 with the records of what was copied, or 1 with none. -/
theorem kprobetcp_eq (e : Endian) (k : Kernel) (ctx : ProbeContext) :
    kprobetcp e k ctx =
      match copied k ctx with
      | some bs => ⟨0, records e bs⟩
      | none => ⟨1, []⟩ := by
  unfold kprobetcp tryKprobetcp copied
  cases ctx.arg0 with
  | none => rfl
  | some sock =>
    cases hread : k.probeRead (sock + skCommonOffset) SockCommon.LEN with
    | error err =>
      simp only [pure_bind, hread, Traced.ofExcept_eq, Except.toOption]
      show (⟨(u32TryFrom err).getD 1, []⟩ : Outcome UInt32 Log) = ⟨1, []⟩
      rw [u32TryFrom_of_neg (k.error_neg hread)]
      rfl
    | ok bs =>
      simp only [pure_bind, hread, Traced.ofExcept_eq, Traced.mk_ok_bind, Except.toOption, records]
      by_cases hinet : u16Load e (bytesAt bs (SockCommon.offset .skcFamily) 2) = AF_INET
      · simp only [if_pos hinet]
        rfl
      by_cases hinet6 : u16Load e (bytesAt bs (SockCommon.offset .skcFamily) 2) = AF_INET6
      · simp only [if_neg hinet, if_pos hinet6]
        rfl
      · simp only [if_neg hinet, if_neg hinet6]
        rfl

/-- What the program names lies inside its copy. -/
theorem field_le_copied {k : Kernel} {ctx : ProbeContext} {bs : List UInt8}
    (h : copied k ctx = some bs) (f : SockCommon) :
    f.offset + (SockCommon.layout f).size ≤ bs.length := by
  unfold copied at h
  cases harg : ctx.arg0 with
  | none =>
    rw [harg] at h
    exact nomatch h
  | some sock =>
    rw [harg] at h
    cases hread : k.probeRead (sock + skCommonOffset) SockCommon.LEN with
    | error err =>
      simp only [hread] at h
      exact nomatch h
    | ok bs' =>
      simp only [hread] at h
      rw [← Option.some.inj h, k.length_eq hread]
      exact SockCommon.offset_add_size_le f

/-- There is a copy iff there is an argument and the kernel could read what it points to. -/
theorem copied_isSome_iff {k : Kernel} {ctx : ProbeContext} : (copied k ctx).isSome ↔
    ∃ sock bs, ctx.arg0 = some sock ∧ k.probeRead sock SockCommon.LEN = .ok bs := by
  unfold copied
  cases ctx.arg0 with
  | none => simp
  | some sock =>
    simp only [skCommonOffset, Nat.add_zero]
    cases hread : k.probeRead sock SockCommon.LEN with
    | error err => simp [Except.toOption, hread]
    | ok bs => simp [Except.toOption, hread]

theorem length_records_le (e : Endian) (bs : List UInt8) : (records e bs).length ≤ 1 := by
  unfold records
  simp only
  split
  · exact le_rfl
  · split
    · exact le_rfl
    · exact Nat.zero_le _

/-- **What the function `kprobetcp` returns**, for any argument and any kernel memory: 0 if it got a
copy of the socket, with at most one record, and otherwise 1 with none. -/
theorem kprobetcp_verdict (e : Endian) (k : Kernel) (ctx : ProbeContext) :
    let out := kprobetcp e k ctx
    (out.verdict = 0 ↔ ∃ sock bs, ctx.arg0 = some sock ∧
      k.probeRead sock SockCommon.LEN = .ok bs) ∧
    (out.verdict ≠ 0 → out.verdict = 1 ∧ out.reports = []) ∧ out.reports.length ≤ 1 := by
  simp only
  rw [kprobetcp_eq, ← copied_isSome_iff]
  cases copied k ctx with
  | none =>
    have hverdict : ¬ (1 : UInt32) = 0 := by decide
    exact ⟨iff_of_false hverdict Bool.false_ne_true, fun _ => ⟨rfl, rfl⟩, Nat.zero_le _⟩
  | some bs => exact ⟨iff_of_true rfl rfl, fun h => absurd rfl h, length_records_le e bs⟩

/-! ## The program on sockets -/

/-- What there is to log of a socket: its own address and its peer's. -/
def Socket.records (s : Socket) : List Log :=
  if s.family = AF_INET then [.inet s.rcvSaddr s.daddr]
  else if s.family = AF_INET6 then [.inet6 s.v6RcvSaddr.octets s.v6Daddr.octets]
  else []

section Fields

variable (e : Endian) (s : Socket) (rest : Rest)

theorem family_bytes :
    u16Load e (bytesAt (s.bytes e rest) (SockCommon.offset .skcFamily) 2) = s.family := by
  have h := s.bytesAt_field e rest .skcFamily
  rw [show (SockCommon.layout .skcFamily).size = 2 from rfl] at h
  rw [h]
  exact u16Load_toBytes e s.family

/-- The two addresses lie side by side in the first union. -/
theorem addrBytes_bytes (f : AddrPair) :
    addrBytes (s.bytes e rest) f =
      match f with
      | .skcDaddr => s.daddr.octets
      | .skcRcvSaddr => s.rcvSaddr.octets := by
  have h := s.bytesAt_field e rest .anon1
  have hsize : (SockCommon.layout .anon1).size = 8 := by decide
  have hfit : f.offset + 4 ≤ 8 := by cases f <;> decide
  rw [hsize] at h
  rw [addrBytes, ← bytesAt_bytesAt hfit, h]
  cases f <;> rfl

theorem v6_bytes {f : SockCommon} {addr : Ipv6Addr} (hsize : (SockCommon.layout f).size = 16)
    (hf : s.field e rest f = addr.octets) :
    bytesAt (s.bytes e rest) f.offset 16 = addr.octets := by
  rw [← hsize, s.bytesAt_field e rest f, hf]

/-- **The program's records are the socket's.** -/
theorem records_bytes : records e (s.bytes e rest) = s.records := by
  unfold records Socket.records
  simp only [family_bytes, addrBytes_bytes, u32FromBe_octets, Ipv4Addr.ofU32_toU32]
  rw [v6_bytes e s rest (f := .skcV6RcvSaddr) (by decide) rfl,
    v6_bytes e s rest (f := .skcV6Daddr) (by decide) rfl]

end Fields

/-- **`kprobetcp` logs the socket's addresses**: where the kernel holds a socket, in either byte
order and whatever is in the rest of its `sock_common`. -/
theorem kprobetcp_logs_socket (e : Endian) (k : Kernel) (ctx : ProbeContext) (sock : Nat)
    (harg : ctx.arg0 = some sock) (s : Socket) (rest : Rest)
    (hread : k.probeRead sock SockCommon.LEN = .ok (s.bytes e rest)) :
    kprobetcp e k ctx = ⟨0, s.records⟩ := by
  have hcopied : copied k ctx = some (s.bytes e rest) := by
    rw [copied, harg]
    simp only [skCommonOffset, Nat.add_zero, hread]
    rfl
  rw [kprobetcp_eq, hcopied]
  simp only [records_bytes]

/-- Memory with `bs` wherever one looks, and nothing of another length. -/
def Kernel.holding (bs : List UInt8) : Kernel where
  probeRead _ n := if n = bs.length then .ok bs else .error (-14)
  length_eq h := by
    split at h
    · rename_i hn
      rw [← Except.ok.inj h, hn]
    · exact nomatch h
  error_neg h := by
    split at h
    · exact nomatch h
    · rw [← Except.error.inj h]
      decide

/-- The unspecified IPv6 address. -/
def unspecified : Ipv6Addr := ⟨List.replicate 16 0, by decide⟩

/-- A connection from 10.0.0.2 to 1.1.1.1. -/
def toBlocked : Socket := ⟨AF_INET, ⟨1, 1, 1, 1⟩, ⟨10, 0, 0, 2⟩, unspecified, unspecified⟩

/-- Zeros. -/
def zeros : Rest := ⟨fun f => List.replicate (SockCommon.layout f).size 0, fun f => by simp,
  fun _ => 0⟩

theorem Kernel.probeRead_holding (bs : List UInt8) (addr : Nat) :
    (Kernel.holding bs).probeRead addr bs.length = .ok bs := if_pos rfl

/-- It is logged as such. -/
theorem kprobetcp_logs_toBlocked :
    kprobetcp .little (.holding (toBlocked.bytes .little zeros)) ⟨some 0⟩ =
      ⟨0, [.inet ⟨10, 0, 0, 2⟩ ⟨1, 1, 1, 1⟩]⟩ := by
  have hread := Kernel.probeRead_holding (toBlocked.bytes .little zeros) 0
  rw [toBlocked.length_bytes .little zeros] at hread
  exact kprobetcp_logs_socket .little _ ⟨some 0⟩ 0 rfl toBlocked zeros hread

end AyaBook.Kprobetcp
