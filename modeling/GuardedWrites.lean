import GuardedWrites.Rate.Exact
import GuardedWrites.Rate.Format
import GuardedWrites.Mutation
import GuardedWrites.Rehearsal.Limiters
import GuardedWrites.Rehearsal.Operations
import GuardedWrites.Rehearsal.Play
import GuardedWrites.Rehearsal.ScriptedServer
import GuardedWrites.Proofs.Database.History
import GuardedWrites.Proofs.Database.LostUpdates
import GuardedWrites.Proofs.Effect.Schedule
import GuardedWrites.Proofs.Effect.Shared
import GuardedWrites.Proofs.Idempotency.OneKey
import GuardedWrites.Proofs.Idempotency.Calls
import GuardedWrites.Proofs.Idempotency.Exclusion
import GuardedWrites.Proofs.Idempotency.Permanence
import GuardedWrites.Proofs.Transaction.Provenance
import GuardedWrites.Proofs.Rate.Requests
import GuardedWrites.Proofs.Transaction.Backing
import GuardedWrites.Proofs.Database.Lifetime
import GuardedWrites.Proofs.Database.Serial
import GuardedWrites.Proofs.Database.VersionCheck
import GuardedWrites.Proofs.Effect.Monitor
import GuardedWrites.Proofs.Transaction.Runs
import GuardedWrites.Proofs.Transaction.Ownership
import GuardedWrites.Proofs.Transaction.AllOrNothing
import GuardedWrites.Proofs.Entity.Versions
import GuardedWrites.Proofs.Transaction.Nesting
import GuardedWrites.Proofs.Rate.Admission
import GuardedWrites.Proofs.Rate.Idle
import GuardedWrites.Proofs.Rate.Traffic
import GuardedWrites.Proofs.Rate.Failover
import GuardedWrites.Proofs.Rate.Trial
import GuardedWrites.Proofs.Rate.Evidence
import GuardedWrites.Proofs.Rate.Tripping
import GuardedWrites.Proofs.Rate.SlotCapacity
import GuardedWrites.Proofs.Rate.Naming
import GuardedWrites.Proofs.Rate.WithoutRemote
import GuardedWrites.Proofs.Rate.Sharing
import GuardedWrites.Proofs.Rate.Clearing
import GuardedWrites.Proofs.Rate.Tokens
import GuardedWrites.Proofs.Rate.Foresight
import GuardedWrites.Proofs.Rate.Evictions
import GuardedWrites.Proofs.Idempotency.Expiry
import GuardedWrites.Proofs.Idempotency.OneByOne
import GuardedWrites.Proofs.Idempotency.SequentialCalls
import GuardedWrites.Proofs.Idempotency.LastSuccess
import GuardedWrites.Proofs.Effect.Yields
import GuardedWrites.Proofs.Mutation.RunEffects
import GuardedWrites.Proofs.Mutation.Pipeline
import GuardedWrites.Proofs.Rate.Hits
import GuardedWrites.Proofs.Rate.Waiting
import GuardedWrites.Proofs.Effect.Tally
import GuardedWrites.Proofs.Rate.Fleet
import GuardedWrites.Proofs.Rate.FailureReports
import GuardedWrites.Proofs.Rate.CountersAddUp
import GuardedWrites.Proofs.Rate.Spending
import GuardedWrites.Proofs.Effect.Acts
import GuardedWrites.Proofs.Rate.Dormant
import GuardedWrites.Proofs.Transaction.Retries
import GuardedWrites.Proofs.Entity.Duplicates
import GuardedWrites.Proofs.Transaction.Waits
import GuardedWrites.Proofs.Json.Members
import GuardedWrites.Proofs.Entity.Patches
import GuardedWrites.Proofs.KeyValue.Records
import GuardedWrites.Proofs.KeyValue.Scans
import GuardedWrites.Proofs.Database.Views
import GuardedWrites.Proofs.Entity.Refusals
