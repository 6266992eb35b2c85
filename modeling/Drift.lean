import Drift.Lib.Run
import Drift.Cache.PageOwnership
import Drift.Cache.PagedReorder
import Drift.Cache.Isolation
import Drift.Cache.Conservation
import Drift.Cache.ContiguousCache
import Drift.Lib.Layout
import Drift.Cache.BloomLayout
import Drift.Cache.PagedContents
import Drift.Cache.PagedRefinement
import Drift.Cache.Admission
import Drift.Cache.Allocation
import Drift.Server.MergedStep
import Drift.Server.Serving
import Drift.Server.ChunkPositions
import Drift.Cache.AllocationLock
import Drift.Cache.AllocationAccounting
import Drift.Cache.ReportedFree
import Drift.Server.ModuleAnnouncer
import Drift.Lib.Backprop
import Drift.Server.RpcForward
import Drift.Server.ForwardRequest
import Drift.Lib.Vjp
import Drift.Server.RequestGradients
import Drift.Lib.Retry
import Drift.Lib.Links
import Drift.Client.Routing
import Drift.Lib.Chunks
import Drift.Lib.Partition
import Drift.Utils.TensorParallel
import Drift.Utils.HeadParallel
import Drift.Client.AutogradRecovery
import Drift.Client.MicroBatching
import Drift.Client.Bans
import Drift.Cache.PagedRoom
import Drift.Server.PagedFaithful
import Drift.Client.StepArguments
import Drift.Server.PrefixBounds
import Drift.Server.PushOutputs
import Drift.Server.SessionRouting
import Drift.Server.InferenceSteps
import Drift.Client.Positions
import Drift.Models.SpeculativeContext
import Drift.Models.SpeculativeStopping
import Drift.Models.LogitsProcessor
import Drift.Server.Rebalancing
import Drift.Server.FreshPlacement
import Drift.Server.TaskPool
import Drift.Server.CacheBytes
import Drift.Client.InferenceGraph
import Drift.Client.Routes
import Drift.Client.RoutingSafety
import Drift.Client.SequenceManager
import Drift.Client.TableCoherence
import Drift.Client.LinkedSession
import Drift.Client.SessionLinks
import Drift.Client.Failover
import Drift.Client.FailureAtomicity
import Drift.Utils.JoinToken
import Drift.Api.Streaming
import Drift.Utils.DiskCache
import Drift.Utils.NestedPackaging
import Drift.Client.SpanWindows
import Drift.Client.PingedServers
import Drift.Client.RepeatedBackward
import Drift.Utils.Peft
import Drift.Lib.Simulation
import Drift.Server.SpanServing
import Drift.Client.SwarmSimulation
import Drift.Client.ServedSwarm
import Drift.Client.ServedSessions
import Drift.Lib.Rounds
import Drift.Lib.Barrier
import Drift.Utils.AllReduceTensors
import Drift.Utils.CollectiveOperation
import Drift.Utils.HeadParallelThreads
import Drift.Client.RemoteGradients
import Drift.Client.BeamSearch
import Drift.Client.DiscoveredSwarm
import Drift.Server.LoadBlock
