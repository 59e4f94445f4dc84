import TransportBalancer.Lib.Program
import TransportBalancer.Lib.Pool
import TransportBalancer.Lib.Charge
import TransportBalancer.Lib.Path
import TransportBalancer.Lib.Words
import TransportBalancer.Lib.Shares
import TransportBalancer.Lib.Means
import TransportBalancer.Lib.Keyed
import TransportBalancer.Lib.Occurrence
import TransportBalancer.Lib.Segments
import TransportBalancer.Lib.Notify
import TransportBalancer.Lib.BatchQueue
import TransportBalancer.Lib.Registry
import TransportBalancer.Rpc
import TransportBalancer.Throttle.State
import TransportBalancer.Throttle.Decay
import TransportBalancer.Throttle.Threads
import TransportBalancer.Throttle.Escalation
import TransportBalancer.Throttle.Recovery
import TransportBalancer.Throttle.Streak
import TransportBalancer.Throttle.Relief
import TransportBalancer.Throttle.Sequential
import TransportBalancer.Throttle.Observers
import TransportBalancer.Throttle.Records
import TransportBalancer.Throttle.Registered
import TransportBalancer.Throttle.Backoff
import TransportBalancer.Throttle.Domain
import TransportBalancer.Balancer.Transport
import TransportBalancer.Balancer.Registries
import TransportBalancer.Balancer.HostGroups
import TransportBalancer.Balancer.RejectedBuild
import TransportBalancer.Balancer.Call
import TransportBalancer.Balancer.LoopRules
import TransportBalancer.Balancer.Rounds
import TransportBalancer.Balancer.Costs
import TransportBalancer.Balancer.Traffic
import TransportBalancer.Balancer.Accounting
import TransportBalancer.Balancer.Sleeps
import TransportBalancer.Balancer.Isolation
import TransportBalancer.Balancer.Outcome
import TransportBalancer.Balancer.HealthyFirst
import TransportBalancer.Balancer.Backoff
import TransportBalancer.Balancer.Availability
import TransportBalancer.Balancer.Gates
import TransportBalancer.Balancer.GateWaits
import TransportBalancer.Balancer.Progress
import TransportBalancer.Balancer.RoundRobin
import TransportBalancer.Balancer.EligibleShares
import TransportBalancer.Batching.Programs
import TransportBalancer.Batching.LoopRules
import TransportBalancer.Batching.System
import TransportBalancer.Batching.Ledger
import TransportBalancer.Batching.FlushStages
import TransportBalancer.Batching.Conservation
import TransportBalancer.Batching.Schedule
import TransportBalancer.Batching.Requests
import TransportBalancer.Batching.Callers
import TransportBalancer.Batching.Answers
import TransportBalancer.Batching.Budgets
import TransportBalancer.Batching.Completion
import TransportBalancer.Batching.Transparent
import TransportBalancer.Batching.Window
import TransportBalancer.Batching.Errors
import TransportBalancer.Batching.SizeCap
import TransportBalancer.Batching.Chunk
import TransportBalancer.Batching.Routing
import TransportBalancer.Batching.Retries
import TransportBalancer.Batching.FirstBatch
import TransportBalancer.Batching.Histories
import TransportBalancer.Batching.FallbackGates
import TransportBalancer.Batching.Wakeups
import TransportBalancer.Batching.Prices
import TransportBalancer.Batching.Amplification
import TransportBalancer.Batching.Savings
import TransportBalancer.Batching.Arrival
import TransportBalancer.Batching.Provenance
import TransportBalancer.Batching.FailureClass
import TransportBalancer.Balancer.HttpFailures
import TransportBalancer.Batching.Shutdown
import TransportBalancer.Batching.EndToEnd
import TransportBalancer.Batching.Latency
