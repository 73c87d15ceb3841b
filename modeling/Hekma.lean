import Hekma.Lib.Precedence
import Hekma.Lib.Forest
import Hekma.Domain.Config
import Hekma.Domain.ConfigValue
import Hekma.Domain.ConfigWrite
import Hekma.Domain.ConfigFrame
import Hekma.Domain.Budget
import Hekma.Domain.Cost
import Hekma.Domain.CostExact
import Hekma.Domain.Governance
import Hekma.Domain.LatchChain
import Hekma.Domain.Lifecycle
import Hekma.Domain.Runs.Record
import Hekma.Domain.Runs.Ops
import Hekma.Domain.Runs.Tree
import Hekma.Lib.Accumulate
import Hekma.Store.UsageLedger
import Hekma.Store.Rollups
import Hekma.Lib.Rounding
import Hekma.Store.RollupCost
import Hekma.Store.UsageDedup
import Hekma.Domain.Pipeline
import Hekma.Lib.Guarded
import Hekma.Supervisor.Control
import Hekma.Supervisor.Engine
import Hekma.Supervisor.DueRestarts
import Hekma.Supervisor.PauseMark
import Hekma.Domain.Breaches
import Hekma.Store.Outbox
import Hekma.Store.OutboxExport
import Hekma.Store.OutboxMigration
import Hekma.Domain.Runs.Snapshot
import Hekma.Supervisor.RestartChain
import Hekma.Supervisor.UsageDrain
import Hekma.Supervisor.UsageChannels
import Hekma.Supervisor.ObservedDrain
import Hekma.Supervisor.Removal
import Hekma.Domain.Runs.Jobs
import Hekma.Lib.Replay
import Hekma.Lib.KeyTree
import Hekma.Domain.Runs.Stream
import Hekma.Domain.Runs.OpenChild
import Hekma.Supervisor.Conduct
import Hekma.Supervisor.HandleRow
import Hekma.Supervisor.SpawnRun
import Hekma.Supervisor.FleetView
import Hekma.Supervisor.Reopening
import Hekma.Store.MemoryBacking
import Hekma.Supervisor.BackingRuns
import Hekma.Store.SpawnRecords
import Hekma.Supervisor.Adoption
import Hekma.Lib.Slots
import Hekma.Host.OneOwner
import Hekma.Host.IdleExit
import Hekma.Supervisor.ExitClass
import Hekma.Supervisor.CrashCommit
import Hekma.Lib.Json
import Hekma.Host.Wire
import Hekma.Lib.Recency
import Hekma.Host.Otlp
import Hekma.Lib.Keyset
import Hekma.Domain.Resync
import Hekma.Acp.Connection
import Hekma.Lib.Transactions
import Hekma.Store.RunMigration
import Hekma.Lib.Lines
import Hekma.Capture.AttributedLog
import Hekma.Capture.Tailer
import Hekma.Capture.Follow
import Hekma.Domain.Runs.WirePath
import Hekma.Lib.Text
import Hekma.Lib.JsonText
import Hekma.Lib.Utf8
import Hekma.Ports.UsageLine
import Hekma.Supervisor.UsageChunks
import Hekma.Supervisor.PollErrors
import Hekma.Domain.Unregistered
import Hekma.Store.RunRows
import Hekma.Metering.Parse
import Hekma.Domain.Dollars
import Hekma.Supervisor.FleetTotals
import Hekma.Host.Exporter
import Hekma.Host.StateGauge
import Hekma.Acp.Codec
import Hekma.Acp.Reader
import Hekma.Store.Journal
import Hekma.Metering.Relay
import Hekma.Lib.JsonTree
import Hekma.Metering.Inject
import Hekma.Supervisor.Truncation
import Hekma.Lib.Percent
import Hekma.Host.Notes
import Hekma.Capture.Metadata
import Hekma.Lib.Chunks
import Hekma.Domain.Readiness
import Hekma.Capture.BacklogPrime
import Hekma.Capture.LogsFollow
import Hekma.Capture.FinalDrain
import Hekma.Lib.Checks
import Hekma.Adapter.ManifestError
import Hekma.Adapter.ProbeUrl
import Hekma.Adapter.Probes
import Hekma.Lib.LexPath
import Hekma.Adapter.ConfigMapping
import Hekma.Adapter.Manifest
import Hekma.Adapter.HomePaths
import Hekma.Lib.Writes
import Hekma.Adapter.ConfigApply
import Hekma.Adapter.ConfigDelivered
import Hekma.Supervisor.Shutdown
import Hekma.Lib.LinePlaces
import Hekma.Capture.HostFollow
import Hekma.Capture.FollowSilence
import Hekma.Domain.NearestKey
import Hekma.Domain.Ulid
import Hekma.Domain.Time
import Hekma.Capture.Sha256
import Hekma.Cli.SelfUpdate
import Hekma.Host.Envelope
import Hekma.Supervisor.ReadOnly
import Hekma.Metering.Fence
import Hekma.Metering.Forward
import Hekma.Store.Migrations
import Hekma.Host.Events
import Hekma.Domain.ConfigWriters
import Hekma.Supervisor.Unresponsive
import Hekma.Domain.Event
import Hekma.Supervisor.StartSecrets
