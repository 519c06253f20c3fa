-- The coordination of Pulse: worker leases, the leader lock, job processing and
-- the aggregation of run results.
import Pulse.AggregationChanges
import Pulse.AggregationDecode
import Pulse.AggregationEffects
import Pulse.AggregationInput
import Pulse.AggregationRecord
import Pulse.AggregationReplies
import Pulse.AggregationScripts
import Pulse.AggregationSteps
import Pulse.AggregationStore
import Pulse.AggregationSummary
import Pulse.AggregationTally
import Pulse.AggregatorRefinement
import Pulse.BackoffBudget
import Pulse.Base64
import Pulse.Base64Padded
import Pulse.Checks
import Pulse.ComponentChecks
import Pulse.Config
import Pulse.ConsumedRecords
import Pulse.Consumers
import Pulse.Contracts
import Pulse.Counters
import Pulse.Decimals
import Pulse.DecodingCosts
import Pulse.DispatchLedger
import Pulse.DispatchStore
import Pulse.DoubleBoundaries
import Pulse.Doubles
import Pulse.Durations
import Pulse.DynamicDecoding
import Pulse.DynamicMessages
import Pulse.DynamicRoundTrip
import Pulse.ExecutionLease
import Pulse.FailedRecords
import Pulse.Floats
import Pulse.HistogramQuantiles
import Pulse.Histograms
import Pulse.Identities
import Pulse.IdentityBudget
import Pulse.JobContract
import Pulse.JobSettlement
import Pulse.Json
import Pulse.JsonText
import Pulse.Keyspace
import Pulse.LatencyMetrics
import Pulse.LeaderFencing
import Pulse.LeaderLock
import Pulse.LeaseBudgets
import Pulse.LeaseDeadlines
import Pulse.LeaseLaws
import Pulse.LocalReaders
import Pulse.LuaNumbers
import Pulse.Maintenance
import Pulse.MemorySummaries
import Pulse.MirroredRun
import Pulse.NearestRank
import Pulse.OfferedLoad
import Pulse.PackedBlocks
import Pulse.PackedFields
import Pulse.Pipeline
import Pulse.PlanMaterial
import Pulse.PoisonEvidence
import Pulse.RecordTexts
import Pulse.RedisKeys
import Pulse.ReplayExecution
import Pulse.ReplayJobs
import Pulse.ReplayRecords
import Pulse.ReplaySettlement
import Pulse.ReplayTool
import Pulse.ResultConsumption
import Pulse.RetryChain
import Pulse.RunAggregator
import Pulse.RunCapacity
import Pulse.RunDeadlines
import Pulse.RunFailures
import Pulse.RunIngestion
import Pulse.RunMerging
import Pulse.RunOutbox
import Pulse.RunRecords
import Pulse.RunnerAccounting
import Pulse.ScenarioRunner
import Pulse.ScenarioSchema
import Pulse.ScheduleRecords
import Pulse.ScheduledJobs
import Pulse.Shares
import Pulse.SlicePlan
import Pulse.SortedCounters
import Pulse.SortedSets
import Pulse.Strings
import Pulse.SummaryDelivery
import Pulse.SummaryEvents
import Pulse.Systems
import Pulse.Tables
import Pulse.Templates
import Pulse.TextSearch
import Pulse.TimedLeases
import Pulse.TokenBucket
import Pulse.Traces
import Pulse.UnknownFields
import Pulse.Varints
import Pulse.WindowHistory
import Pulse.WindowOverlap
import Pulse.WindowSequence
import Pulse.WireFormat
import Pulse.WorkerChecks
import Pulse.WorkerMetrics
import Pulse.WorkerProtocol
import Pulse.WorkerProvenance
import Pulse.ZeroStarts
