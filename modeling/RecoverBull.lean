import RecoverBull.Buckets
import RecoverBull.Canary
import RecoverBull.Handlers.Conditional
import RecoverBull.Handlers.MaxAge
import RecoverBull.Lib.Collect
import RecoverBull.Lib.Crash
import RecoverBull.Lib.Draining
import RecoverBull.Lib.Erasure
import RecoverBull.Lib.FiniteMap
import RecoverBull.Lib.FirstWriter
import RecoverBull.Lib.Machine
import RecoverBull.Lib.Numeral
import RecoverBull.Lib.Reservoir
import RecoverBull.Lib.Semaphore
import RecoverBull.Lib.Splitting
import RecoverBull.Lib.Transaction
import RecoverBull.Limiter.Accounting
import RecoverBull.Limiter.Budget
import RecoverBull.Limiter.Commutation
import RecoverBull.Limiter.Cost
import RecoverBull.Limiter.Counters
import RecoverBull.Limiter.Expiry
import RecoverBull.Limiter.GuessRate
import RecoverBull.Limiter.Independence
import RecoverBull.Limiter.Lockout
import RecoverBull.Limiter.LockoutBoundary
import RecoverBull.Limiter.LongRun
import RecoverBull.Limiter.Operations
import RecoverBull.Limiter.Ownership
import RecoverBull.Limiter.PreviousAttempt
import RecoverBull.Limiter.Refunds
import RecoverBull.Limiter.Retention
import RecoverBull.Limiter.RetryAfter
import RecoverBull.Limiter.Settled
import RecoverBull.Limiter.Timestamps
import RecoverBull.Migrations
import RecoverBull.Router
import RecoverBull.Secrets.Adopted
import RecoverBull.Secrets.Answers
import RecoverBull.Secrets.Growth
import RecoverBull.Secrets.Keys
import RecoverBull.Secrets.Linearization
import RecoverBull.Secrets.Oracle
import RecoverBull.Secrets.Recovery
import RecoverBull.Secrets.Release
import RecoverBull.Secrets.Restarts
import RecoverBull.Secrets.Subject
import RecoverBull.Secrets.Transactions
import RecoverBull.Server.Arrivals
import RecoverBull.Server.Calls
import RecoverBull.Server.Contract
import RecoverBull.Server.Draining
import RecoverBull.Server.Effects
import RecoverBull.Server.Frame
import RecoverBull.Server.Load
import RecoverBull.Server.Outline
import RecoverBull.Server.Permits
import RecoverBull.Server.Polls
import RecoverBull.Server.Sequential.Attempts
import RecoverBull.Server.Sequential.Fetch
import RecoverBull.Server.Sequential.Store
import RecoverBull.Server.SingleFlight
import RecoverBull.Server.Snapshot
import RecoverBull.Server.Step
import RecoverBull.Server.StoreTrace
import RecoverBull.Server.Telemetry
import RecoverBull.Server.Trace
import RecoverBull.Server.Uniform
import RecoverBull.Startup
