import StacksDex.Lib.BigEndian
import StacksDex.Lib.SortedAssoc
import StacksDex.Lib.Overlay
import StacksDex.Lib.Ladder
import StacksDex.Model.Machine
import StacksDex.Model.Text
import StacksDex.Model.C32
import StacksDex.Model.Principal
import StacksDex.Lib.Framing
import StacksDex.Model.Clarity
import StacksDex.Bridge.ClarityWire
import StacksDex.Bridge.ClarityTuples
import StacksDex.Results.Codec
import StacksDex.Model.DlmmMath
import StacksDex.Model.DlmmPool
import StacksDex.Lib.Rounding
import StacksDex.Bridge.DlmmWalk
import StacksDex.Results.Quotes
import StacksDex.Model.Event
import StacksDex.Model.DlmmEvents
import StacksDex.Model.V2Pools
import StacksDex.Model.StableSwap
import StacksDex.Model.Fetcher
import StacksDex.Model.Registry
import StacksDex.Bridge.Cells
import StacksDex.Results.Mirror
import StacksDex.Bridge.Dispatch
import StacksDex.Lib.Run
import StacksDex.Model.EventQueue
import StacksDex.Bridge.Pipeline
import StacksDex.Results.Isolation
import StacksDex.Results.Replay
import StacksDex.Results.Redelivery
import StacksDex.Lib.Paging
import StacksDex.Model.EventPoller
import StacksDex.Bridge.Polling
import StacksDex.Results.PollCompleteness
import StacksDex.Model.PoolInterface
import StacksDex.Model.PrintEvents
import StacksDex.Model.BlockWalker
import StacksDex.Model.BlockWalkingSource
import StacksDex.Bridge.BlockWalk
import StacksDex.Results.BlockCompleteness
import StacksDex.Results.Contention
import StacksDex.Results.FeeSafety
import StacksDex.Results.ConstantProduct
import StacksDex.Bridge.C32Radix
import StacksDex.Results.Address
import StacksDex.Bridge.Producers
import StacksDex.Results.SendOrder
import StacksDex.Bridge.PollOrder
import StacksDex.Results.PollOrder
import StacksDex.Model.CollectorHandle
import StacksDex.Bridge.Pollers
import StacksDex.Results.Pollers
import StacksDex.Model.DlmmFetcher
import StacksDex.Bridge.BulkReads
import StacksDex.Results.BulkReads
import StacksDex.Bridge.Joining
import StacksDex.Results.Joining
import StacksDex.Results.Windows
import StacksDex.Results.Inventory
import StacksDex.Results.V2Quotes
import StacksDex.Model.Curve
import StacksDex.Model.StableQuotes
import StacksDex.Lib.Newton
import StacksDex.Bridge.CurveLoops
import StacksDex.Bridge.CurveSolver
import StacksDex.Bridge.CurveConvergence
import StacksDex.Results.StableCurve
import StacksDex.Results.StableQuotes
import StacksDex.Bridge.CurveReserves
import StacksDex.Results.StableReserves
import StacksDex.Results.StableV1
import StacksDex.Model.Handlers
import StacksDex.Bridge.Handlers
import StacksDex.Results.Freshness
import StacksDex.Bridge.DecoderSafety
import StacksDex.Results.Decoding
import StacksDex.Results.Readers
import StacksDex.Results.CanonicalAddress
import StacksDex.Model.Client
import StacksDex.Bridge.HexText
import StacksDex.Results.HexCodec
import StacksDex.Lib.NewtonRoots
import StacksDex.Bridge.CurveAccuracy
import StacksDex.Results.StableAccuracy
import StacksDex.Bridge.WalkOrder
import StacksDex.Results.BlockMirror
import StacksDex.Bridge.Harvest
import StacksDex.Results.Interchange
import StacksDex.Model.EventsPage
import StacksDex.Bridge.PageWalk
import StacksDex.Results.EventStreams
import StacksDex.Lib.Retry
import StacksDex.Model.RpcClient
import StacksDex.Results.RpcClient
import StacksDex.Model.BitflowFetcher
import StacksDex.Results.OwnContracts
import StacksDex.Results.DormantPools
import StacksDex.Lib.Fairness
import StacksDex.Model.Collector
import StacksDex.Bridge.Collector
import StacksDex.Bridge.Stopping
import StacksDex.Bridge.CollectorCycles
import StacksDex.Results.Lifecycle
import StacksDex.Lib.Memo
import StacksDex.Model.Caches
import StacksDex.Results.Caches
import StacksDex.Results.ServedQuotes
import StacksDex.Results.RegistryKeys
import StacksDex.Bridge.Delivery
import StacksDex.Results.Delivery
