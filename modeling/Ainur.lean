import Ainur.Lib.Run
import Ainur.Lib.Fallible
import Ainur.Lib.RowLock
import Ainur.Lib.Sql
import Ainur.Lib.Request
import Ainur.Lib.LinearMemory
import Ainur.Lib.Keyed
import Ainur.Lib.Queue
import Ainur.Lib.Utf8
import Ainur.Lib.Cast
import Ainur.Lib.JsonText
import Ainur.Json
import Ainur.Lib.Serde
import Ainur.Core.Types
import Ainur.Storage.Schema
import Ainur.Chain.Payload
import Ainur.Chain.Agreement
import Ainur.Chain.Replay
import Ainur.Chain.Deliveries
import Ainur.Api.Model
import Ainur.Outbox.Row
import Ainur.Storage.Records
import Ainur.Storage.Format
import Ainur.Storage.Documents
import Ainur.Storage.Columns
import Ainur.Storage.RoundTrip
import Ainur.Storage.Backends
import Ainur.Storage.Results
import Ainur.Api.Handlers
import Ainur.Chain.HexFields
import Ainur.Api.PayloadSize
import Ainur.Api.Atomicity
import Ainur.Api.Enqueue
import Ainur.Api.InFlight
import Ainur.Api.MemoryIntegrity
import Ainur.Api.LatestResult
import Ainur.Outbox.System
import Ainur.Outbox.Integrity
import Ainur.Outbox.Attempts
import Ainur.Outbox.LastError
import Ainur.Outbox.Order
import Ainur.Bridge.Events
import Ainur.Bridge.System
import Ainur.Bridge.Wiring
import Ainur.Bridge.ChainIds
import Ainur.Bridge.MirroredTasks
import Ainur.Bridge.StatusOrder
import Ainur.Bridge.Branches
import Ainur.Bridge.TaskMirror
import Ainur.Bridge.BidSources
import Ainur.Bridge.Placeholders
import Ainur.Bridge.Backfill
import Ainur.Bridge.EventText
import Ainur.Wasm.Echo
import Ainur.Wasm.GuestAbi
import Ainur.Lib.Refinement
import Ainur.Outbox.Commits
import Ainur.Outbox.Metrics
import Ainur.Lib.Paging
import Ainur.Outbox.Listing
import Ainur.Outbox.Progress
import Ainur.Outbox.Tracking
import Ainur.Api.Sequential
import Ainur.Api.Dashboard
import Ainur.Bridge.Signed
import Ainur.Bridge.Asked
import Ainur.Bridge.Unseen
import Ainur.Lib.Grows
import Ainur.Bridge.Reads
import Ainur.Chain.Journal
import Ainur.Bridge.Handling
import Ainur.Bridge.Queue
