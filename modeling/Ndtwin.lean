import Ndtwin.ForStd.AssocMap
import Ndtwin.ForStd.Bfs
import Ndtwin.ForStd.BoundedSearch
import Ndtwin.ForStd.CText
import Ndtwin.ForStd.Decimal
import Ndtwin.ForStd.DiGraph
import Ndtwin.ForStd.EState
import Ndtwin.ForStd.EStateRel
import Ndtwin.ForStd.Episode
import Ndtwin.ForStd.Hex
import Ndtwin.ForStd.Json
import Ndtwin.ForStd.JsonUpdate
import Ndtwin.ForStd.LastSeen
import Ndtwin.ForStd.LazyBfs
import Ndtwin.ForStd.List
import Ndtwin.ForStd.Mirror
import Ndtwin.ForStd.Numeral
import Ndtwin.ForStd.OnesComplement
import Ndtwin.ForStd.Pieces
import Ndtwin.ForStd.Python
import Ndtwin.ForStd.PythonText
import Ndtwin.ForStd.Run
import Ndtwin.ForStd.SimplePath
import Ndtwin.ForStd.SortedInsert
import Ndtwin.ForStd.Walk
import Ndtwin.ForStd.Words
import Ndtwin.Kernel.AllPaths
import Ndtwin.Kernel.BfsPaths
import Ndtwin.Kernel.Classifier
import Ndtwin.Kernel.DestinationPaths
import Ndtwin.Kernel.EdgeFlows
import Ndtwin.Kernel.FlowBatch
import Ndtwin.Kernel.FlowDispatcher
import Ndtwin.Kernel.FlowEntry
import Ndtwin.Kernel.FlowJob
import Ndtwin.Kernel.FlowLinkUsageCollector
import Ndtwin.Kernel.FlowPath
import Ndtwin.Kernel.FlowPurge
import Ndtwin.Kernel.FlowRoutingManager
import Ndtwin.Kernel.FlowStatsPoll
import Ndtwin.Kernel.FlowTables
import Ndtwin.Kernel.Graph
import Ndtwin.Kernel.HttpRoutingStrategy
import Ndtwin.Kernel.HttpSession
import Ndtwin.Kernel.ImmediateRates
import Ndtwin.Kernel.IntentTranslator
import Ndtwin.Kernel.KeyedFailureLog
import Ndtwin.Kernel.LinkRates
import Ndtwin.Kernel.LLMResponseTypes
import Ndtwin.Kernel.LinkUsage
import Ndtwin.Kernel.LockHandlers
import Ndtwin.Kernel.LockManager
import Ndtwin.Kernel.OVSPowerStrategy
import Ndtwin.Kernel.P4Liveness
import Ndtwin.Kernel.PacketLoop
import Ndtwin.Kernel.PingWorker
import Ndtwin.Kernel.QueryParam
import Ndtwin.Kernel.ReceiveQueues
import Ndtwin.Kernel.SFlowType
import Ndtwin.Kernel.TopologyFile
import Ndtwin.Kernel.TopologyMonitor
import Ndtwin.Kernel.Utils
import Ndtwin.Proxy.ApiRoutes
import Ndtwin.Proxy.DestinationPaths
import Ndtwin.Proxy.Fabric
import Ndtwin.Proxy.LinkWatchdog
import Ndtwin.Proxy.LldpBeacon
import Ndtwin.Proxy.MatchFields
import Ndtwin.Proxy.NetGraph
import Ndtwin.Proxy.P4Client
import Ndtwin.Proxy.PacketIo
import Ndtwin.Proxy.Pipeline
import Ndtwin.Proxy.RyuFlowStats
import Ndtwin.Proxy.RyuTopology
import Ndtwin.Proxy.SFlowEmitter
import Ndtwin.Proxy.SwitchLiveness
import Ndtwin.Proxy.SwitchProgram
import Ndtwin.Proxy.TopologyManager
import Ndtwin.Proxy.WatchdogPass
import Ndtwin.Router.AllPairPaths
import Ndtwin.Router.HostNet
import Ndtwin.Router.IntelligentRouter
import Ndtwin.Tools.P4PowerHelper
import Ndtwin.Twin.Discovery
import Ndtwin.Twin.LinkState
import Ndtwin.Twin.P4Liveness
import Ndtwin.Twin.Southbound
import Ndtwin.Spec.AdministrativeDisableCorrect
import Ndtwin.Spec.AllPairPathsCorrect
import Ndtwin.Spec.AllPairWalkCorrect
import Ndtwin.Spec.AllPathsCorrect
import Ndtwin.Spec.BfsPathsCorrect
import Ndtwin.Spec.BfsReverseCorrect
import Ndtwin.Spec.BfsSearchCorrect
import Ndtwin.Spec.ClassifierCorrect
import Ndtwin.Spec.ClassifierInvariant
import Ndtwin.Spec.ConcurrentRoutesCorrect
import Ndtwin.Spec.DestinationPathsCorrect
import Ndtwin.Spec.DiscoveryCorrect
import Ndtwin.Spec.EdgeFlowsCorrect
import Ndtwin.Spec.EmitterAgeCorrect
import Ndtwin.Spec.EmitterRunCorrect
import Ndtwin.Spec.FabricCorrect
import Ndtwin.Spec.FlowBatchCorrect
import Ndtwin.Spec.FlowDeleteCorrect
import Ndtwin.Spec.FlowDispatcherCorrect
import Ndtwin.Spec.FlowPathCorrect
import Ndtwin.Spec.FlowPurgeCorrect
import Ndtwin.Spec.FlowRefusalsCorrect
import Ndtwin.Spec.FlowSampleCorrect
import Ndtwin.Spec.FlowStagesCorrect
import Ndtwin.Spec.FlowStatsPollCorrect
import Ndtwin.Spec.FlowTablesCorrect
import Ndtwin.Spec.HandlePacketCorrect
import Ndtwin.Spec.HeaderChecksumCorrect
import Ndtwin.Spec.HostIndexCorrect
import Ndtwin.Spec.ImmediateRatesCorrect
import Ndtwin.Spec.InitialRoutesCorrect
import Ndtwin.Spec.InstalledRoutesCorrect
import Ndtwin.Spec.IntentFlowEntriesCorrect
import Ndtwin.Spec.IntentOrderCorrect
import Ndtwin.Spec.KeyedFailureLogCorrect
import Ndtwin.Spec.LLMResponseTypesCorrect
import Ndtwin.Spec.LinkDivisionsCorrect
import Ndtwin.Spec.LinkRatesCorrect
import Ndtwin.Spec.LinkStateCorrect
import Ndtwin.Spec.LinkUsageCorrect
import Ndtwin.Spec.LinkWatchdogCorrect
import Ndtwin.Spec.LldpBeaconCorrect
import Ndtwin.Spec.LockHandlersCorrect
import Ndtwin.Spec.LockManagerCorrect
import Ndtwin.Spec.MacTextCorrect
import Ndtwin.Spec.MatchCompileCorrect
import Ndtwin.Spec.MatchConditionsCorrect
import Ndtwin.Spec.MatchFieldsCorrect
import Ndtwin.Spec.OVSPowerCorrect
import Ndtwin.Spec.P4ClientCorrect
import Ndtwin.Spec.P4LivenessCorrect
import Ndtwin.Spec.PackedMatchCorrect
import Ndtwin.Spec.PacketIoCorrect
import Ndtwin.Spec.PacketLoopCorrect
import Ndtwin.Spec.PathSearchesCorrect
import Ndtwin.Spec.PingWorkerCorrect
import Ndtwin.Spec.PipelineCorrect
import Ndtwin.Spec.PollPrefixCorrect
import Ndtwin.Spec.PowerHelperCorrect
import Ndtwin.Spec.PowerOffTargetCorrect
import Ndtwin.Spec.ReceiveQueuesCorrect
import Ndtwin.Spec.ReceiveQueuesInvariant
import Ndtwin.Spec.RenderedRuleCorrect
import Ndtwin.Spec.RenderedTableCorrect
import Ndtwin.Spec.QueryParamCorrect
import Ndtwin.Spec.ReplyEntriesCorrect
import Ndtwin.Spec.ReportedPathsCorrect
import Ndtwin.Spec.RequestValuesCorrect
import Ndtwin.Spec.RequestedMatchCorrect
import Ndtwin.Spec.RouteLocalityCorrect
import Ndtwin.Spec.RouteReinstallCorrect
import Ndtwin.Spec.RouteWritesCorrect
import Ndtwin.Spec.RoutingGraphCorrect
import Ndtwin.Spec.RuleIdentityCorrect
import Ndtwin.Spec.SFlowEmitterCorrect
import Ndtwin.Spec.SameRuleCorrect
import Ndtwin.Spec.SlidingWindowCorrect
import Ndtwin.Spec.SnapshotIsolationCorrect
import Ndtwin.Spec.SouthboundCorrect
import Ndtwin.Spec.SwitchTablesCorrect
import Ndtwin.Spec.TopologyFileCorrect
import Ndtwin.Spec.TopologyWorkerCorrect
import Ndtwin.Spec.TwinPathCorrect
import Ndtwin.Spec.WatchdogPassCorrect
