import LinuxDrv.Pdm.Process
import LinuxDrv.Pdm.Moves
import LinuxDrv.Pdm.Outcomes
import LinuxDrv.Pdm.Records
import LinuxDrv.Pdm.Restart
import LinuxDrv.Pdm.Assoc
import LinuxDrv.Pdm.Stop
import LinuxDrv.Pdm.Lifecycle
import LinuxDrv.Driver.Ext
import LinuxDrv.Driver.Callbacks
import LinuxDrv.Pdm.Os
import LinuxDrv.Pdm.Pid
import LinuxDrv.Driver.Ioctl
import LinuxDrv.Pdm.SlotAgree
import LinuxDrv.Pdm.Shutdown
import LinuxDrv.Driver.Irq
import LinuxDrv.Driver.IrqSafe
import LinuxDrv.Driver.IrqOffline
import LinuxDrv.Udf.Module
import LinuxDrv.Udf.Dev
import LinuxDrv.Core.Memory
import LinuxDrv.Driver.Hw
import LinuxDrv.Udf.DevSafe
import LinuxDrv.Udf.Lib
import LinuxDrv.Udf.Rearm
import LinuxDrv.Driver.RegsInfo
import LinuxDrv.Core.History
import LinuxDrv.Pdm.CardFrame
import LinuxDrv.Pdm.Filter
import LinuxDrv.Pdm.Hello
import LinuxDrv.Driver.RawRegs
import LinuxDrv.Driver.RegsPos
import LinuxDrv.Driver.CardData
import LinuxDrv.Udf.Mmap
import LinuxDrv.Udf.Online
import LinuxDrv.Core.Ledger
import LinuxDrv.Udf.OsPtr
import LinuxDrv.Driver.Dmd
import LinuxDrv.Core.Scan
import LinuxDrv.Driver.Cmd
import LinuxDrv.Udf.Fpga
import LinuxDrv.Udf.Image
import LinuxDrv.Core.Loop
import LinuxDrv.Core.Ring
import LinuxDrv.Core.BitField
import LinuxDrv.Driver.RegDef
import LinuxDrv.Pdm.Cplist
import LinuxDrv.Udf.Delay
import LinuxDrv.Udf.IoctlIf
import LinuxDrv.Udf.ThOpen
import LinuxDrv.Core.Fifo
import LinuxDrv.Core.Words
import LinuxDrv.Core.Dispatch
import LinuxDrv.Core.Notify
import LinuxDrv.Core.SameUpTo
import LinuxDrv.Pdm.Progress
import LinuxDrv.Pdm.Device
import LinuxDrv.Pdm.Pointers
import LinuxDrv.Pdm.PtrRefines
import LinuxDrv.Pdm.Supervise
import LinuxDrv.Pdm.Hung
import LinuxDrv.Driver.FileOp
import LinuxDrv.Driver.Sifp
import LinuxDrv.Driver.IrqServed
import LinuxDrv.Driver.SysFunc
import LinuxDrv.Driver.Chip
import LinuxDrv.Udf.OpSet
import LinuxDrv.Udf.Upgrade
import LinuxDrv.Udf.SlotInfo
import LinuxDrv.Udf.Poll
import LinuxDrv.Udf.Unload
