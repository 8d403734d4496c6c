import QemuGzvm.Block.Exclusion
import QemuGzvm.Block.FlushQueue
import QemuGzvm.Block.FuaDurable
import QemuGzvm.Gzvm.Attributes
import QemuGzvm.Gzvm.IrqLine
import QemuGzvm.Gzvm.Kick
import QemuGzvm.Gzvm.SignalRanges
import QemuGzvm.Memory.Ioeventfd
import QemuGzvm.Memory.LateListener
import QemuGzvm.Net.QueueRuns
import QemuGzvm.Nvram.FwCfgDma
import QemuGzvm.Pci.BarMappings
import QemuGzvm.Pci.BusMaster
import QemuGzvm.Pci.IntxCount
import QemuGzvm.Physmem.AccessValid
import QemuGzvm.Physmem.BounceBuffer
import QemuGzvm.Physmem.RamRuns
import QemuGzvm.Util.BottomHalfRuns
import QemuGzvm.Util.CoMutexSafe
import QemuGzvm.Util.LockCntSafe
import QemuGzvm.Util.QemuOptsParse
import QemuGzvm.Util.TimedAverage
import QemuGzvm.Util.TimerListRuns
import QemuGzvm.Virtio.DropCompletes
import QemuGzvm.Virtio.Notify
import QemuGzvm.Virtio.OrderedCompletion
import QemuGzvm.Virtio.PackedAccounting
import QemuGzvm.Virtio.SplitAccounting
import QemuGzvm.Virtio.Unpop
import QemuGzvm.Virtio.UsedElemsBounds
import QemuGzvm.Virtio.Vectors
import QemuGzvm.VirtioBlk.Restart
import QemuGzvm.VirtioNet.ReceiveExact
import QemuGzvm.VirtioNet.TransmitRuns
