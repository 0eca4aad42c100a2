import HftBot.Core.Sweep
import HftBot.Core.Run
import HftBot.Core.Retry
import HftBot.Core.Json
import HftBot.Core.Url
import HftBot.Core.SortedMap
import HftBot.Core.Bucket
import HftBot.Core.BoundedQueue
import HftBot.Core.Threads
import HftBot.Core.Wakeups
import HftBot.Core.Utf8
import HftBot.Core.JsonText
import HftBot.Core.JsonObject
import HftBot.Core.JsonScan
import HftBot.Core.Machine
import HftBot.Core.Decimal
import HftBot.Core.Lines
import HftBot.Core.Search
import HftBot.Core.LastBest
import HftBot.Core.Hex
import HftBot.Core.Query
import HftBot.Core.Pieces
import HftBot.Core.Double
import HftBot.Core.Returns
import HftBot.Core.PyValue
import HftBot.Core.CanonicalJson
import HftBot.Core.WordMix
import HftBot.Core.Leaves
import HftBot.Core.SameJson
import HftBot.Core.Changes
import HftBot.Core.Interleaving
import HftBot.Feed.FixedPoint
import HftBot.Feed.OrderBook
import HftBot.Feed.OrderBookManager
import HftBot.Feed.RecoveryLadder
import HftBot.Feed.Decoder
import HftBot.Feed.WsClient
import HftBot.Feed.Server
import HftBot.Feed.OrderBookProperties
import HftBot.Feed.ManagerCalls
import HftBot.Feed.BookRefinement
import HftBot.Feed.Soundness
import HftBot.Feed.Contiguous
import HftBot.Feed.Membership
import HftBot.Feed.Monotone
import HftBot.Feed.Recovery
import HftBot.Feed.LadderTrace
import HftBot.Feed.Reconnect
import HftBot.Feed.Binding
import HftBot.Feed.Markers
import HftBot.Feed.Overflow
import HftBot.Feed.Decimal
import HftBot.Feed.Scanner
import HftBot.Feed.Strictness
import HftBot.Rest.RequestSpec
import HftBot.Rest.TokenBucket
import HftBot.Rest.Conformance
import HftBot.Rest.Backoff
import HftBot.Rest.Client
import HftBot.Rest.Pool
import HftBot.Rest.RequestExecutor
import HftBot.Rest.AtMostOnce
import HftBot.Rest.ReserveFirst
import HftBot.Rest.BucketOps
import HftBot.Rest.Refill
import HftBot.Rest.Reservations
import HftBot.Rest.Limits
import HftBot.Rest.CheckedBucket
import HftBot.Rest.Routing
import HftBot.Rest.RestApi
import HftBot.Rest.BusInvariant
import HftBot.Rest.Query
import HftBot.Rest.BackoffBounds
import HftBot.Rest.Template
import HftBot.Resp.Client
import HftBot.Resp.Grammar
import HftBot.Resp.Reading
import HftBot.Resp.Protocol
import HftBot.Resp.Session
import HftBot.Resp.Subscription
import HftBot.Resp.Connections
import HftBot.Safety.Env
import HftBot.Safety.FailClosed
import HftBot.Safety.Redact
import HftBot.Safety.Secrecy
import HftBot.Safety.RedactTwice
import HftBot.Shadow.Registry
import HftBot.Shadow.FillSim
import HftBot.Shadow.Ledger
import HftBot.Shadow.Engine
import HftBot.Shadow.RegistryProperties
import HftBot.Shadow.Lifecycle
import HftBot.Shadow.Invariant
import HftBot.Shadow.Steps
import HftBot.Shadow.Evolution
import HftBot.Shadow.Exposure
import HftBot.Shadow.Fills
import HftBot.Shadow.Volume
import HftBot.Shadow.Orders
import HftBot.Shadow.Settlement
import HftBot.Shadow.Timing
import HftBot.Shadow.Log
import HftBot.Shadow.Dominance
import HftBot.Shadow.LedgerProperties
import HftBot.Shadow.Accounting
import HftBot.Shadow.Capacity
import HftBot.Shadow.QueueLaw
import HftBot.Shadow.Markouts
import HftBot.Shadow.MarkoutReference
import HftBot.Shadow.FeeTable
import HftBot.Shadow.FeeRounding
import HftBot.Shadow.Inventory
import HftBot.Shadow.Quoter
import HftBot.Store.Base64
import HftBot.Store.RawLog
import HftBot.Store.RawLine
import HftBot.Store.RoundTrip
import HftBot.Store.Crash
import HftBot.Store.WsRecorder
import HftBot.Store.Completeness
import HftBot.Store.BlindSpots
import HftBot.Store.Rotation
import HftBot.Store.EntityRegistry
import HftBot.Store.Replay
import HftBot.Store.Stored
import HftBot.Store.Pipeline
import HftBot.Engine.Wire
import HftBot.Engine.Tradingd
import HftBot.Engine.OrderAccounting
import HftBot.Engine.DrainDeadline
import HftBot.Engine.Ring
import HftBot.Engine.RingInvariant
import HftBot.Engine.RingSteps
import HftBot.Engine.RingCorrect
import HftBot.Engine.Doorbell
import HftBot.Engine.OrderId
import HftBot.Engine.Ticker
import HftBot.Engine.OrderBody
import HftBot.Engine.Exchange
import HftBot.Engine.Frames
import HftBot.Engine.Poller
import HftBot.Engine.Tape
import HftBot.Dashboard.Tail
import HftBot.Dashboard.Handover
import HftBot.Experiment.Profiles
import HftBot.Experiment.Actions
import HftBot.Experiment.Data
import HftBot.Experiment.Card
import HftBot.Experiment.CardValue
import HftBot.Experiment.Seeds
import HftBot.Experiment.Eligibility
import HftBot.Experiment.Registry
import HftBot.Experiment.SeedProperties
import HftBot.Experiment.Validate
import HftBot.Experiment.Readable
import HftBot.Experiment.ReadableCard
import HftBot.Experiment.ReadableRegistry
import HftBot.Experiment.Pinned
import HftBot.Experiment.ProfileProperties
import HftBot.Experiment.AcceptedCard
import HftBot.Experiment.AcceptedBindings
import HftBot.Experiment.AcceptedNamed
import HftBot.Experiment.AcceptedRegistry
import HftBot.Experiment.Tampered
import HftBot.Safety.ExecutionGate
