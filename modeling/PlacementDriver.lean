import PlacementDriver.Verified.KeyRange
import PlacementDriver.Verified.DenseIndex
import PlacementDriver.Vendor.BTree
import PlacementDriver.Core.RegionInfo
import PlacementDriver.Core.RegionTree
import PlacementDriver.Core.RegionTreeModel
import PlacementDriver.Core.RegionMap
import PlacementDriver.Core.RegionsInfo
import PlacementDriver.Core.RegionsInfoInvariant
import PlacementDriver.Core.RegionsInfoQueries
import PlacementDriver.Go.ContainerList
import PlacementDriver.Cache.LRU
import PlacementDriver.Cache.LRURefinement
import PlacementDriver.Cache.TwoQueue
import PlacementDriver.Cache.TwoQueueInvariant
import PlacementDriver.Core.Statistics
import PlacementDriver.Schedule.HotCache
import PlacementDriver.Server.Heartbeat
import PlacementDriver.Server.Staleness
import PlacementDriver.Server.Tso
import PlacementDriver.Server.Version
import PlacementDriver.Server.StoreLifecycle
import PlacementDriver.Server.RegionSyncer
import PlacementDriver.Server.IdAlloc
import PlacementDriver.Schedule.Cluster
import PlacementDriver.Schedule.Operator
import PlacementDriver.Schedule.OperatorSimulation
import PlacementDriver.Schedule.RegionScatterer
import PlacementDriver.Schedule.OperatorController
import PlacementDriver.Server.RaftCluster
import PlacementDriver.Schedule.MergeChecker
import PlacementDriver.Schedulers.RandomMerge
import PlacementDriver.Server.NamespaceCluster
import PlacementDriver.Verified.GoMap
import PlacementDriver.Verified.BitFlags
import PlacementDriver.Verified.PairRefinement
import PlacementDriver.Server.RegionStatistics
import PlacementDriver.Core.StoreScore
import PlacementDriver.Schedulers.ShouldBalance
import PlacementDriver.Schedulers.AdjacentRegion
import PlacementDriver.Go.ContainerHeap
import PlacementDriver.Table.Codec
import PlacementDriver.Table.NamespaceClassifier
import PlacementDriver.Api.TopNRegions
import PlacementDriver.Schedule.RangeCluster
import PlacementDriver.Server.ClusterWorker
import PlacementDriver.Server.ScheduleOption
import PlacementDriver.Server.Handler
import PlacementDriver.Go.Int
import PlacementDriver.Placement.Functions
import PlacementDriver.Tools.DecodeKey
import PlacementDriver.Go.Strings
import PlacementDriver.Placement.Parser
import PlacementDriver.Core.RegionKV
import PlacementDriver.Schedule.ReplicaChecker
import PlacementDriver.Schedule.NamespaceChecker
import PlacementDriver.Core.RegionKVFlush
import PlacementDriver.Cache.TTL
import PlacementDriver.Schedule.OpInfluence
import PlacementDriver.Verified.Transfer
import PlacementDriver.Schedulers.BalanceLeader
import PlacementDriver.Schedulers.BalanceRegion
import PlacementDriver.Server.Coordinator
import PlacementDriver.Schedulers.HotRegion
