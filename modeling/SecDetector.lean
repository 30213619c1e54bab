import SecDetector.Lib.Run
import SecDetector.Lib.Idr
import SecDetector.Lib.ListHead
import SecDetector.Lib.ListChain
import SecDetector.Lib.CyclicMemory
import SecDetector.Lib.Tiling
import SecDetector.Lib.CString
import SecDetector.Lib.Memory
import SecDetector.Lib.Ledger
import SecDetector.Framework.Types
import SecDetector.Framework.Hook
import SecDetector.Framework.Manager
import SecDetector.Framework.Linkage
import SecDetector.Framework.HookSpec
import SecDetector.Framework.ManagerSpec
import SecDetector.Framework.Rollback
import SecDetector.Framework.Lifetime
import SecDetector.Framework.Armed
import SecDetector.Framework.Workflow
import SecDetector.Framework.Ownership
import SecDetector.Framework.Attempt
import SecDetector.Framework.Moves
import SecDetector.Framework.Runs
import SecDetector.Framework.Dispatch
import SecDetector.Framework.Resources
import SecDetector.Ring.Layout
import SecDetector.Ring.Model
import SecDetector.Ring.Stored
import SecDetector.Ring.Kernel
import SecDetector.Ring.Delivery
import SecDetector.Ring.InOrder
import SecDetector.Ring.Masks
import SecDetector.Ring.Pending
import SecDetector.Ring.Wakeup
import SecDetector.PubSub.Server
import SecDetector.PubSub.Registry
import SecDetector.PubSub.Fanout
import SecDetector.PubSub.Shutdown
import SecDetector.PubSub.Resubscribe
import SecDetector.PubSub.Count
import SecDetector.Report.SaveCheck
import SecDetector.Report.Cases
import SecDetector.Report.Trip
import SecDetector.Report.Baseline
import SecDetector.Report.Collect
import SecDetector.Report.Positions
import SecDetector.Ebpf.Event
import SecDetector.Ebpf.Process
import SecDetector.Ebpf.File
import SecDetector.Ebpf.Converter
import SecDetector.Ebpf.Fields
import SecDetector.Ebpf.Arguments
import SecDetector.Ebpf.Texts
import SecDetector.Ebpf.Written
import SecDetector.Ebpf.StaleFree
import SecDetector.Task.Kernel
import SecDetector.Task.CommonInfo
import SecDetector.Lib.Kfifo
import SecDetector.Lib.DropOldest
import SecDetector.Alarm.Log
import SecDetector.Alarm.Queue
import SecDetector.Lib.Paging
import SecDetector.Ring.Area
import SecDetector.Ring.Paged
import SecDetector.Ring.Mapped
import SecDetector.Lib.Table
import SecDetector.Report.Rounds
import SecDetector.Report.Sizes
import SecDetector.Report.Fold
import SecDetector.Framework.Units
import SecDetector.Alarm.Errors
import SecDetector.Alarm.Writers
import SecDetector.Ebpf.Emission
import SecDetector.Ebpf.CommandLine
import SecDetector.Ebpf.Skeleton
import SecDetector.Lib.Holding
import SecDetector.Core.Startup
import SecDetector.Lib.Greedy
import SecDetector.Report.Kmodule
import SecDetector.Lib.KString
import SecDetector.Block.Rules
import SecDetector.Ring.Codec
import SecDetector.Lib.SortedMap
import SecDetector.Lib.Numeral
import SecDetector.Usage.Json
import SecDetector.Usage.Disk
import SecDetector.Usage.Difference
import SecDetector.Usage.Number
import SecDetector.Usage.Dump
import SecDetector.Usage.Parse
import SecDetector.Usage.Heard
import SecDetector.Usage.ReadBack
import SecDetector.Usage.GetData
import SecDetector.Lib.RcuList
import SecDetector.Framework.Handlers
import SecDetector.Block.Enforce
import SecDetector.Block.Verdict
import SecDetector.PubSub.Received
import SecDetector.Service.Daemon
import SecDetector.Service.MainThread
import SecDetector.Service.EndToEnd
import SecDetector.Ring.Drain
import SecDetector.Lib.Custody
import SecDetector.Alarm.Buffers
import SecDetector.Alarm.BufferSafety
import SecDetector.Sdk.Library
import SecDetector.Sdk.Stream
import SecDetector.Sdk.Handles
import SecDetector.Sdk.Reads
import SecDetector.Lib.Resources
import SecDetector.Handlers.Workflow
import SecDetector.Handlers.WorkflowSpec
import SecDetector.Handlers.Cases
import SecDetector.Handlers.CasesSpec
import SecDetector.Handlers.System
import SecDetector.Handlers.Safety
import SecDetector.Usage.RoundTrip
import SecDetector.Usage.Lines
import SecDetector.Usage.Printed
import SecDetector.Usage.Ssh
