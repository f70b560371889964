import Furnace.App.Access
import Furnace.App.AddFailure
import Furnace.App.Agreement
import Furnace.App.BatchArray
import Furnace.App.BatchLife
import Furnace.App.BatchObj
import Furnace.App.Buffers
import Furnace.App.Delivery
import Furnace.App.ErrorReport
import Furnace.App.Errors
import Furnace.App.Frontend
import Furnace.App.Ledger
import Furnace.App.LinkNames
import Furnace.App.ListBatch
import Furnace.App.Loop
import Furnace.App.Memdump
import Furnace.App.MemdumpRuns
import Furnace.App.ModuleList
import Furnace.App.Pauses
import Furnace.App.Pipeline
import Furnace.App.Queries
import Furnace.App.TaskBatches
import Furnace.App.TaskLists
import Furnace.App.TaskWalk
import Furnace.App.Tenant
import Furnace.App.Tenants
import Furnace.App.TimerRuns
import Furnace.App.Timers
import Furnace.App.VmaPath
import Furnace.Fac.Client
import Furnace.Fac.Duplex
import Furnace.Fac.Loop
import Furnace.Fac.Message
import Furnace.Fac.Quota
import Furnace.Fac.Relay
import Furnace.Fac.Replies
import Furnace.Fac.SetFailure
import Furnace.Fac.Shutdown
import Furnace.Fac.Store
import Furnace.Fac.StoreMap
import Furnace.Fac.Survival
import Furnace.Inspector.ArgTests
import Furnace.Inspector.Comments
import Furnace.Inspector.Confinement
import Furnace.Inspector.Coverage
import Furnace.Inspector.DirGlob
import Furnace.Inspector.FilePolicy
import Furnace.Inspector.Grammar
import Furnace.Inspector.LineMachine
import Furnace.Inspector.Meaning
import Furnace.Inspector.Policy
import Furnace.Inspector.ReadString
import Furnace.Inspector.Tracer
import Furnace.Inspector.Writer
import Furnace.Lib.Chain
import Furnace.Lib.Cursor
import Furnace.Lib.FirstFree
import Furnace.Lib.Lexical
import Furnace.Lib.Libgen
import Furnace.Lib.Lines
import Furnace.Lib.Outcome
import Furnace.Lib.Program
import Furnace.Lib.PyText
import Furnace.Lib.Relate
import Furnace.Lib.Tagged
import Furnace.Lib.Tiles
import Furnace.Lib.Transition
import Furnace.Lib.Utf8
import Furnace.Lib.Visit
import Furnace.Lib.Weight
import Furnace.Proto.Message
import Furnace.Proto.Schema
import Furnace.Vmi.Batch
import Furnace.Vmi.Dispatch
import Furnace.Vmi.ErrorFlag
import Furnace.Vmi.EventMap
import Furnace.Vmi.Exchange
import Furnace.Vmi.Frame
import Furnace.Vmi.Framing
import Furnace.Vmi.Handlers
import Furnace.Vmi.Interference
import Furnace.Vmi.Link
import Furnace.Vmi.LinkArithmetic
import Furnace.Vmi.LinkCache
import Furnace.Vmi.LinkHistory
import Furnace.Vmi.LinkResolution
import Furnace.Vmi.LinkSafety
import Furnace.Vmi.LinkSearch
import Furnace.Vmi.Malformed
import Furnace.Vmi.Masking
import Furnace.Vmi.Mock
import Furnace.Vmi.Ownership
import Furnace.Vmi.PluginRegistry
import Furnace.Vmi.Registry
import Furnace.Vmi.RequestBounds
import Furnace.Vmi.Robustness
import Furnace.Vmi.Sequential
import Furnace.Vmi.State
import Furnace.Vmi.SyscallArgs
import Furnace.Vmi.SyscallEvents
import Furnace.Vmi.SyscallFilter
import Furnace.Vmi.Syscalls
import Furnace.Vmi.TaskList
import Furnace.Vmi.Traps
