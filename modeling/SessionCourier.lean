import SessionCourier.CommandLine.Ending
import SessionCourier.CommandLine.Parser
import SessionCourier.Delivery.Pool.Step
import SessionCourier.Delivery.Shard.Schedule
import SessionCourier.Log.Line
import SessionCourier.Main
import SessionCourier.Metrics.Deliveries
import SessionCourier.Metrics.Snapshot
import SessionCourier.Rehearsal.Bench
import SessionCourier.Rehearsal.Errand
import SessionCourier.Rehearsal.Network
import SessionCourier.Rehearsal.Trial
import SessionCourier.Settings.Loader
import SessionCourier.Wire.Link
import SessionCourier.Wire.LoggingDriver
import SessionCourier.Proofs.Outbox.Change
import SessionCourier.Proofs.Outbox.History
import SessionCourier.Proofs.Outbox.Order
import SessionCourier.Proofs.Outbox.Detached
import SessionCourier.Proofs.Outbox.Alone
import SessionCourier.Proofs.Outbox.Backoff
import SessionCourier.Proofs.Outbox.Flush
import SessionCourier.Proofs.Outbox.Links
import SessionCourier.Proofs.Outbox.Retries
import SessionCourier.Proofs.Outbox.Accounts
import SessionCourier.Proofs.Outbox.Waits
import SessionCourier.Proofs.Outbox.Closing
import SessionCourier.Proofs.Shard.Change
import SessionCourier.Proofs.Shard.Sound
import SessionCourier.Proofs.Shard.Deeds
import SessionCourier.Proofs.Shard.History
import SessionCourier.Proofs.Shard.Ending
import SessionCourier.Proofs.Shard.Escalation
import SessionCourier.Proofs.Shard.Wake
import SessionCourier.Proofs.Shard.Pass
import SessionCourier.Proofs.Shard.Idle
import SessionCourier.Proofs.Pool.Change
import SessionCourier.Proofs.Pool.History
import SessionCourier.Proofs.Pool.Shards
import SessionCourier.Proofs.Pool.Sound
import SessionCourier.Proofs.Pool.Order
import SessionCourier.Proofs.Pool.Shutdown
import SessionCourier.Proofs.Pool.Escalation
import SessionCourier.Proofs.Pool.Accounts
import SessionCourier.Proofs.Pool.Homes
import SessionCourier.Proofs.Text.Decimal
import SessionCourier.Proofs.Text.Split
import SessionCourier.Proofs.Session.Addresses
import SessionCourier.Proofs.Json.Printing
import SessionCourier.Proofs.Json.Scalars
import SessionCourier.Proofs.Json.Reading
import SessionCourier.Proofs.Json.Canonical
import SessionCourier.Proofs.Json.Decoding
import SessionCourier.Proofs.Json.Members
import SessionCourier.Proofs.Settings.Given
import SessionCourier.Proofs.Settings.Layers
import SessionCourier.Proofs.Notice.Decoding
import SessionCourier.Proofs.Notice.Handles
import SessionCourier.Proofs.Wire.Framing
import SessionCourier.Proofs.Wire.Requests
import SessionCourier.Proofs.Wire.Responses
import SessionCourier.Proofs.Wire.Exchange
import SessionCourier.Proofs.Wire.Replies
import SessionCourier.Proofs.Wire.Serving
import SessionCourier.Proofs.Sorting.Rearranged
import SessionCourier.Proofs.Sorting.Keyed
import SessionCourier.Proofs.Metrics.Ascending
import SessionCourier.Proofs.Metrics.Lookups
import SessionCourier.Proofs.Metrics.Accesses
import SessionCourier.Proofs.Metrics.Reached
import SessionCourier.Proofs.Metrics.Reads
import SessionCourier.Proofs.Metrics.Ranks
import SessionCourier.Proofs.Metrics.Recorded
import SessionCourier.Proofs.Metrics.Labels
import SessionCourier.Proofs.Metrics.Snapshots
import SessionCourier.Proofs.Outbox.Reports
import SessionCourier.Proofs.Pool.Reports
import SessionCourier.Proofs.Pool.Offers
import SessionCourier.Proofs.CommandLine.Notices
import SessionCourier.Proofs.CommandLine.Arguments
import SessionCourier.Proofs.CommandLine.Forms
import SessionCourier.Proofs.Rehearsal.Trial
import SessionCourier.Proofs.Rehearsal.Errand
import SessionCourier.Proofs.Number.Comparison
import SessionCourier.Proofs.Number.Power
import SessionCourier.Proofs.Number.Rounding
import SessionCourier.Proofs.Number.Worth
import SessionCourier.Proofs.Settings.Delay
import SessionCourier.Proofs.Settings.Corrections
import SessionCourier.Proofs.Text.Bounds
