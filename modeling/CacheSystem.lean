import CacheSystem.Bytes
import CacheSystem.EndToEnd
import CacheSystem.Linearizability
import CacheSystem.LowBits
import CacheSystem.Lib.Concurrent
import CacheSystem.TickEnds
import CacheSystem.AtRest
import CacheSystem.DeferredWrites
import CacheSystem.FiringOrder
import CacheSystem.Latency
import CacheSystem.Coherence
import CacheSystem.Promises
import CacheSystem.Replay
import CacheSystem.Resends
import CacheSystem.RoundTrip
import CacheSystem.CenterTurns
import CacheSystem.Refinement
import CacheSystem.Lib.LeasedRegister
import CacheSystem.AckTable
import CacheSystem.Acks
import CacheSystem.Agreement
import CacheSystem.Answers
import CacheSystem.AtMostOnce
import CacheSystem.Builds
import CacheSystem.Client
import CacheSystem.Common
import CacheSystem.Completion
import CacheSystem.DataCenter
import CacheSystem.Deferred
import CacheSystem.Expiry
import CacheSystem.FailingTimers
import CacheSystem.HeapCalls
import CacheSystem.Lease
import CacheSystem.LeaseEnds
import CacheSystem.Lib.Heap
import CacheSystem.Lib.HeapOrder
import CacheSystem.Lib.Run
import CacheSystem.Lib.Table
import CacheSystem.Lib.Wire
import CacheSystem.Macros
import CacheSystem.Managers
import CacheSystem.Message
import CacheSystem.Network
import CacheSystem.OneExpiry
import CacheSystem.Refusals
import CacheSystem.OpIds
import CacheSystem.Ownership
import CacheSystem.QueueContract
import CacheSystem.QueueOrder
import CacheSystem.ReadIsolation
import CacheSystem.Routing
import CacheSystem.Reentrancy
import CacheSystem.Server
import CacheSystem.ServerSteps
import CacheSystem.SnowFlake
import CacheSystem.StateManager
import CacheSystem.TickRuns
import CacheSystem.TimerQueue
import CacheSystem.Transport
import CacheSystem.Updates
import CacheSystem.Wiring
