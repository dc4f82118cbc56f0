import BxRnic.Lib.Run
import BxRnic.Lib.Word
import BxRnic.Lib.Ring
import BxRnic.Lib.FlagRing
import BxRnic.Lib.Doorbell
import BxRnic.Lib.Window
import BxRnic.Lib.Extent
import BxRnic.Hw
import BxRnic.Header
import BxRnic.Mpb
import BxRnic.Exchange.Server
import BxRnic.Exchange.Proofs.Registry
import BxRnic.User.Qp
import BxRnic.User.Lifecycle
import BxRnic.User.Wqe
import BxRnic.User.PostSend
import BxRnic.User.PostRecv
import BxRnic.User.PollCq
import BxRnic.User.Proofs.Rounds
import BxRnic.User.Proofs.PollCq
import BxRnic.User.Proofs.RecvRing
import BxRnic.User.System
import BxRnic.User.Proofs.Entries
import BxRnic.User.Proofs.SendTurn
import BxRnic.Lib.Lap
import BxRnic.User.Proofs.Steps
import BxRnic.User.Proofs.SendCompletions
import BxRnic.User.Proofs.RecvCompletions
import BxRnic.User.Proofs.RecvCounted
import BxRnic.User.Remote
import BxRnic.User.Registers
import BxRnic.User.Proofs.AddrCache
import BxRnic.Kernel.Qp
import BxRnic.Kernel.ModifyQp
import BxRnic.Kernel.Wqe
import BxRnic.Kernel.PostSend
import BxRnic.Kernel.PostRecv
import BxRnic.Kernel.Registers
import BxRnic.Kernel.RegMr
import BxRnic.User.RegMr
import BxRnic.Pair.Model
import BxRnic.Pair.Proofs.States
import BxRnic.Pair.Registers
import BxRnic.Pair.Proofs.Header
import BxRnic.Pair.Proofs.RegMr
import BxRnic.Lib.Bitmap
import BxRnic.Lib.Registered
import BxRnic.Kernel.Resources
import BxRnic.Kernel.System
import BxRnic.Kernel.Proofs.Entries
import BxRnic.Kernel.Proofs.Queues
import BxRnic.Kernel.Proofs.Resources
import BxRnic.Kernel.Mmap
import BxRnic.Kernel.Proofs.Mmap
import BxRnic.Kernel.Context
import BxRnic.Kernel.Proofs.Context
import BxRnic.Lib.Field
import BxRnic.Lib.Slices
import BxRnic.Mac.RxRing
import BxRnic.Mac.Proofs.Slices
import BxRnic.Mac.Proofs.RxPages
import BxRnic.Lib.Counter
import BxRnic.Lib.Bytes
import BxRnic.Kernel.Ah
import BxRnic.Kernel.Proofs.Ah
import BxRnic.User.Proofs.Lookup
import BxRnic.Pair.Proofs.RecvPlacement
import BxRnic.Kernel.Proofs.ModifyQp
import BxRnic.User.Proofs.RecvCounter
import BxRnic.User.Proofs.Progress
import BxRnic.User.Proofs.Filling
import BxRnic.Kernel.Proofs.Filling
import BxRnic.Pair.Proofs.Immediate
import BxRnic.Pair.Proofs.Translation
import BxRnic.Lib.Chain
import BxRnic.User.Calls
import BxRnic.Kernel.Calls
import BxRnic.User.Proofs.Calls
import BxRnic.Kernel.Proofs.Calls
import BxRnic.Pair.Proofs.ErrorContract
import BxRnic.Lib.Related
import BxRnic.Pcs.Port
import BxRnic.Pcs.Training
import BxRnic.Pcs.Proofs.Link
import BxRnic.Pcs.Proofs.Operations
import BxRnic.Pcs.Proofs.Traces
import BxRnic.Pcs.Proofs.Independence
import BxRnic.Pcs.LinkCheck
import BxRnic.Pcs.Proofs.Negotiation
import BxRnic.Pcs.Proofs.Verdict
import BxRnic.Pcs.Proofs.WorkingLink
import BxRnic.Mac.TxQueue
import BxRnic.Mac.Proofs.WakeUp
import BxRnic.Mac.TxRing
import BxRnic.Mac.Proofs.TxLayout
import BxRnic.Mac.Proofs.TxWindow
import BxRnic.Mac.Proofs.TxRollback
import BxRnic.Mac.Proofs.MapUndone
import BxRnic.Mac.Proofs.TxChain
import BxRnic.Mac.Proofs.TxReserve
import BxRnic.Mac.Proofs.TxSlots
import BxRnic.Mac.Proofs.TxPacket
import BxRnic.Mac.Proofs.TxReclaim
import BxRnic.Mac.Proofs.TxRoom
import BxRnic.Mac.Proofs.TxOwner
import BxRnic.Lib.Ledger
import BxRnic.Mac.Channels
import BxRnic.Mac.Proofs.Channels
import BxRnic.Mac.StartUp
import BxRnic.Mac.Proofs.StartUp
import BxRnic.Mac.Mmc
import BxRnic.Mac.Proofs.Mmc
import BxRnic.Mac.RxFilter
import BxRnic.Mac.Proofs.AddrFilter
import BxRnic.Mac.Proofs.VlanFilter
import BxRnic.Mac.RxPoll
import BxRnic.Mac.Proofs.RxFrame
import BxRnic.Mac.Proofs.RxLoop
import BxRnic.Mac.Proofs.RxPacket
import BxRnic.Mac.Proofs.RxReassembly
import BxRnic.Mac.AllPoll
import BxRnic.Mac.Proofs.AllPoll
import BxRnic.Mac.RxPolls
import BxRnic.Mac.Proofs.RxTurns
import BxRnic.Mac.Proofs.RxPolls
import BxRnic.Lib.SearchTree
import BxRnic.Kernel.Pool
import BxRnic.Kernel.Proofs.Pool
import BxRnic.Kernel.MrMap
import BxRnic.Kernel.Proofs.RegFailure
import BxRnic.Kernel.Proofs.PageMap
import BxRnic.Kernel.Ucontext
import BxRnic.Kernel.Proofs.Ucontext
import BxRnic.Kernel.Proofs.AhSlots
import BxRnic.User.DeregMr
import BxRnic.User.Proofs.DeregMr
import BxRnic.User.QpTable
import BxRnic.User.Proofs.QpTable
import BxRnic.Bits
import BxRnic.Lib.Halves
import BxRnic.Kernel.CreateQueues
import BxRnic.Kernel.Proofs.CreateQueues
import BxRnic.Mac.Proofs.RxOrder
import BxRnic.Mac.Proofs.RxArming
import BxRnic.Mac.Proofs.RxOnce
import BxRnic.Mac.Interrupts
import BxRnic.Mac.Proofs.Interrupts
import BxRnic.Lib.Race
import BxRnic.Mac.Ieu
import BxRnic.Mac.Proofs.Ieu
import BxRnic.Mac.Coalesce
import BxRnic.Mac.Proofs.Coalesce
import BxRnic.Lib.Indirect
import BxRnic.Mac.Rss
import BxRnic.Mac.Proofs.Rss
import BxRnic.Mac.L3L4Filter
import BxRnic.Mac.Proofs.L3L4Filter
import BxRnic.Lib.Deal
import BxRnic.Mac.QueueMapping
import BxRnic.Mac.Proofs.QueueMapping
import BxRnic.Mac.NetLife
import BxRnic.Mac.Proofs.NetLife
import BxRnic.Lib.LinkedList
import BxRnic.Lib.Apart
import BxRnic.User.UserList
import BxRnic.User.Proofs.UserList
import BxRnic.Kernel.RoceDriver
import BxRnic.Kernel.Proofs.RoceDriver
import BxRnic.Lib.RefCount
import BxRnic.Mac.PageRefs
import BxRnic.Mac.Proofs.PageRefs
import BxRnic.Mac.Proofs.PageRuns
import BxRnic.Lib.Records
import BxRnic.Exchange.Socket
import BxRnic.Exchange.Proofs.Socket
import BxRnic.Exchange.SharedLock
import BxRnic.Exchange.Proofs.SharedLock
import BxRnic.Lib.Held
import BxRnic.Mac.TxLife
import BxRnic.Mac.Proofs.TxLife
