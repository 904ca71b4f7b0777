import AyaBook.Lib.Endian
import AyaBook.Lib.BoundedMap
import AyaBook.Lib.Machine
import AyaBook.Lib.Traced
import AyaBook.Lib.BatchReader
import AyaBook.Lib.Words
import AyaBook.Lib.Bits
import AyaBook.Rust
import AyaBook.Lib.ReprC
import AyaBook.Bitfield
import AyaBook.Net.NetworkTypes
import AyaBook.Net.Reading
import AyaBook.Blocklist
import AyaBook.Xdp.Context
import AyaBook.Xdp.PtrAt
import AyaBook.Xdp.Drop
import AyaBook.Xdp.Log
import AyaBook.Xdp.Source
import AyaBook.Xdp.Bounds
import AyaBook.Egress.SkBuff
import AyaBook.Egress.Tc
import AyaBook.Egress.PacketLog
import AyaBook.Egress.CgroupSkb
import AyaBook.Egress.Agreement
import AyaBook.Egress.EventLog
import AyaBook.Egress.Delivery
import AyaBook.Endianness
import AyaBook.Payload
import AyaBook.Loader
import AyaBook.Lifecycle
import AyaBook.Kprobe.SockCommon
import AyaBook.Kprobe.Kprobetcp
import AyaBook.Lsm.TaskAlloc
import AyaBook.Lsm.Processes
import AyaBook.Lsm.Running
import AyaBook.Lsm.TaskSetnice
import AyaBook.Lsm.Requests
import AyaBook.Xtask.Commands
import AyaBook.Xtask.Workspace
import AyaBook.Xtask.Options
import AyaBook.Userspace
import AyaBook.Xtask.History
import AyaBook.Xtask.Spawn
import AyaBook.Xtask.Main
