import RtThread.Library.TransitionSystem
import RtThread.Library.Ring
import RtThread.Library.RingTable
import RtThread.Library.SkipList
import RtThread.Kernel.Basic
import RtThread.Kernel.Services
import RtThread.Ipc.Event
import RtThread.Ipc.Mutex
import RtThread.Ipc.MutexInvariant
import RtThread.Ipc.MutexOwnership
import RtThread.Ipc.MutexPriority
import RtThread.Ipc.MutexSignal
import RtThread.Ipc.WaitOrder
import RtThread.Ipc.Semaphore
import RtThread.Ipc.Mailbox
import RtThread.Ipc.MailboxRefinement
import RtThread.Ipc.MessageQueue
import RtThread.Ipc.MessageQueueSlots
import RtThread.Library.BlockList
import RtThread.Library.Words
import RtThread.Scheduler.Basic
import RtThread.Scheduler.Bitmap
import RtThread.Scheduler.Calls
import RtThread.Scheduler.ReadyQueue
import RtThread.SmallMem.Allocation
import RtThread.SmallMem.LowestFree
import RtThread.Drivers.RingBuffer
import RtThread.Drivers.DataQueueFifo
import RtThread.Drivers.DelayedWork
import RtThread.Drivers.WorkqueueExecution
import RtThread.Drivers.WorkqueueWakeup
import RtThread.Drivers.Completion
import RtThread.Library.BoundedQueue
import RtThread.Drivers.RingBlockQueue
import RtThread.Drivers.SerialIntRx
import RtThread.Drivers.SerialDmaRx
import RtThread.Drivers.SerialDmaTx
import RtThread.Drivers.PipeDelivery
import RtThread.Drivers.PipeNoLostWakeup
import RtThread.Drivers.PipeCounts
import RtThread.Drivers.Pm
import RtThread.Drivers.AlarmProgrammed
import RtThread.MemHeap.Alignment
import RtThread.MemPool.Basic
import RtThread.MemPool.Blocks
import RtThread.Signal.Delivery
import RtThread.Signal.Wait
import RtThread.Slab.Release
import RtThread.Slab.Pages
import RtThread.Dfs.OpenFiles
import RtThread.Dfs.DescriptorCounts
import RtThread.Finsh.History
import RtThread.Finsh.Split
import RtThread.Timer.Standing
import RtThread.Timer.Activation
import RtThread.Timer.Expiry
import RtThread.Timer.SoftInvocations
import RtThread.Timer.SoftThread
import RtThread.Dfs.RamfsNamespace
import RtThread.Dfs.PollSleep
import RtThread.At.Framing
import RtThread.At.SocketAccounting
import RtThread.At.StreamDelivery
import RtThread.At.ServerParser
import RtThread.At.ClientResponses
import RtThread.Dfs.RamfsContents
import RtThread.Dfs.OpenPaths
import RtThread.Dfs.Romfs
import RtThread.Drivers.SleepEntry
import RtThread.Drivers.Tickless
import RtThread.Drivers.LightSleep
import RtThread.Drivers.Spi
import RtThread.Drivers.Pwm
import RtThread.Ulog.FanOut
import RtThread.Net.Registry
import RtThread.Net.SalRoom
import RtThread.Net.SalOwnership
import RtThread.FinC.HeapAllocation
import RtThread.FinC.HeapStrings
import RtThread.Ports.RilMatching
import RtThread.Ports.OnenetObjects
import RtThread.Ports.OnenetOutcome
import RtThread.Ports.OnenetDiscover
import RtThread.Ulog.AsyncOutput
import RtThread.At.RxNotice
import RtThread.Libc.RwlockRuns
import RtThread.Libc.ClockTime
import RtThread.Vbus.PrioQueueRuns
import RtThread.Dfs.DirStreamRoundTrip
import RtThread.Dfs.SelectRuns
import RtThread.Zmodem.SubpacketRoundTrip
import RtThread.Vbus.ChannelRuns
import RtThread.Vbus.TransferRuns
import RtThread.SmallMem.Capacity
import RtThread.SmallMem.ReallocData
import RtThread.Kservice.Memory
import RtThread.Kservice.Numerals
