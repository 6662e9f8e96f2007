import Rknpu.Service.Theorems.Bookkeeping
import Rknpu.Queue.Lemmas.Layout
import Rknpu.Queue.Lemmas.Supply
import Rknpu.Service.Ioctl
import Rknpu.Service.Theorems.Progress
import Rknpu.Queue.Lemmas.CleanRun
import Rknpu.Service.Lemmas.Waiters
import Rknpu.Service.Theorems.Modes
import Rknpu.Service.Theorems.Policy
import Rknpu.Service.Lemmas.Queued
import Rknpu.Lib.Loop
import Rknpu.Service.Dispatch
import Rknpu.Service.Theorems.Dispatch
import Rknpu.Device.Device
import Rknpu.Service.Worker
import Rknpu.Service.Lemmas.Worker
import Rknpu.Service.Theorems.Wakeup
import Rknpu.Service.Theorems.Publication
import Rknpu.Queue.Lemmas.Fault
import Rknpu.Service.Clients
import Rknpu.Service.Lemmas.Clients
import Rknpu.Service.Theorems.Fault
import Rknpu.Service.Theorems.Reclaim
import Rknpu.Queue.Lemmas.Reply
import Rknpu.Service.Theorems.Reply
import Rknpu.Lib.Prog
import Rknpu.Adapter.Handlers
import Rknpu.Adapter.Card
import Rknpu.Adapter.Theorems.Bounds
import Rknpu.Adapter.Theorems.Confinement
import Rknpu.Service.Theorems.Delivery
import Rknpu.Device.Theorems.Handles
import Rknpu.Device.Theorems.Isolation
import Rknpu.Starry.AddrSpace
import Rknpu.Starry.Theorems.Lifetime
import Rknpu.Starry.Dma
import Rknpu.Starry.Theorems.Records
import Rknpu.Device.Program
import Rknpu.Device.Theorems.Registers
import Rknpu.Service.Theorems.Arbitration
import Rknpu.Service.Lemmas.Origin
import Rknpu.Service.Theorems.Cores
import Rknpu.Queue.Lemmas.Accounting
import Rknpu.Service.Theorems.Accounting
import Rknpu.Queue.Lemmas.Turns
import Rknpu.Service.Lemmas.Order
import Rknpu.Service.Theorems.Fairness
import Rknpu.Service.Theorems.RoundRobin
import Rknpu.Queue.Theorems.Layout
import Rknpu.Userspace.Lanes
import Rknpu.Device.Theorems.Batches
import Rknpu.Lib.Fields
import Rknpu.Lib.Signed
import Rknpu.Task.Def
import Rknpu.Task.MatMul
import Rknpu.Task.Theorems.Tiles
import Rknpu.Task.Theorems.Regcmd
import Rknpu.Clock.Cru
import Rknpu.Clock.Theorems.Npu
import Rknpu.Clock.Theorems.Emmc
import Rknpu.Lib.BoundedLog
import Rknpu.Service.ScheduleTrace
import Rknpu.Service.Theorems.ScheduleTrace
import Rknpu.Service.Timed
import Rknpu.Queue.Lemmas.Latency
import Rknpu.Service.Lemmas.History
import Rknpu.Service.Lemmas.Timed
import Rknpu.Service.Theorems.Latency
import Rknpu.Service.Lemmas.TimedRounds
import Rknpu.Service.Lemmas.TraceLog
import Rknpu.Service.Theorems.TraceHistory
import Rknpu.Scmi.Protocol
import Rknpu.Scmi.Theorems.Tokens
import Rknpu.Emmc.Host
import Rknpu.Emmc.Theorems.Clock
import Rknpu.Emmc.Lemmas.Calls
import Rknpu.Emmc.Card
import Rknpu.Emmc.Lemmas.Keeps
import Rknpu.Emmc.Theorems.Capacity
import Rknpu.Axtask.RunQueue
import Rknpu.Axtask.BlockOn
import Rknpu.Axtask.Theorems.Wakes
import Rknpu.Starry.SubmitWaiter
import Rknpu.Starry.Theorems.SubmitWaiter
import Rknpu.Axmm.Cow
import Rknpu.Axmm.Lemmas.Cow
import Rknpu.Axmm.Lemmas.Isolation
import Rknpu.Axmm.Theorems.Cow
import Rknpu.Lib.Avl
import Rknpu.Pcie.IntervalTree
import Rknpu.Pcie.Lemmas.Nodes
import Rknpu.Pcie.Lemmas.Tree
import Rknpu.Pcie.Lemmas.Candidates
import Rknpu.Pcie.BarAlloc
import Rknpu.Pcie.Lemmas.Allocate
import Rknpu.Pcie.Lemmas.Allocations
import Rknpu.Pcie.Lemmas.Coalesce
import Rknpu.Pcie.Theorems.Allocator
