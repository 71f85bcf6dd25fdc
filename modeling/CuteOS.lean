import CuteOS.Mm.Merge
import CuteOS.Mm.UnmappedArea
import CuteOS.Arch.KernelStack
import CuteOS.Fs.PipeRead
import CuteOS.Fs.PipeStream
import CuteOS.Fs.Ext2.Geometry
import CuteOS.Kernel.Wait
import CuteOS.Kernel.Restart
import CuteOS.Sched.Interrupts
import CuteOS.Sched.IrqFlag
import CuteOS.Kernel.TimerLocks
import CuteOS.Kernel.ForcedExit
import CuteOS.Fs.Vfs.Open
import CuteOS.Fs.Vfs.Supers
import CuteOS.Fs.Ext2.MapRuns
import CuteOS.Block.CacheRuns
import CuteOS.Fs.Vfs.DcacheRuns
import CuteOS.Jobs.Control
import CuteOS.Kernel.Sigreturn
import CuteOS.Kernel.Reparent
import CuteOS.Kernel.JobSignals
import CuteOS.Kernel.Timeouts
import CuteOS.Kernel.ChildReports
import CuteOS.Kernel.Bitmap
