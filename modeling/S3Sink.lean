import S3Sink.Lib.BTreeSet
import S3Sink.Lib.HashMap
import S3Sink.Lib.Utf8
import S3Sink.Lib.Json
import S3Sink.Lib.Lines
import S3Sink.Lib.Placement
import S3Sink.Lib.Split
import S3Sink.Lib.TransitionSystem
import S3Sink.Lib.Write
import S3Sink.Lib.Json.Encoding
import S3Sink.Lib.Json.Scan
import S3Sink.DataModel
import S3Sink.Record
import S3Sink.Cache
import S3Sink.JsonSerializer
import S3Sink.Envelopes
import S3Sink.Files
import S3Sink.KeyGenerator
import S3Sink.StateMachine
import S3Sink.StateMachine.Commit
import S3Sink.StateMachine.Handled
import S3Sink.StateMachine.Run
import S3Sink.Commit.Book
import S3Sink.Commit.Reference
import S3Sink.Commit.Refinement
import S3Sink.Commit.Broker
import S3Sink.Commit.Durable
import S3Sink.Files.Operations
import S3Sink.StateMachine.OpenFiles
import S3Sink.StateMachine.Uploads
import S3Sink.StateMachine.Lifecycle
import S3Sink.StateMachine.Shelf
import S3Sink.StateMachine.Ledger
import S3Sink.Sink
import S3Sink.Sink.Loops
import S3Sink.Sink.Slots
import S3Sink.Sink.Accounts
import S3Sink.Sink.Conservation
import S3Sink.Sink.CommitSafety
import S3Sink.Cluster
import S3Sink.Stats
import S3Sink.Uploader
import S3Sink.Cluster.Tracking
import S3Sink.Cluster.Delivery
import S3Sink.Sink.Scratch
import S3Sink.StateMachine.Order
import S3Sink.Cluster.Provenance
import S3Sink.Cluster.Once
import S3Sink.Commit.Position
import S3Sink.Commit.Progress
import S3Sink.Files.FileIo
import S3Sink.Files.OnDisk
import S3Sink.Files.RawBlocks
import S3Sink.JsonSerializer.Framing
import S3Sink.JsonSerializer.Decoding
import S3Sink.JsonSerializer.WellFormed
import S3Sink.Record.Router
import S3Sink.KeyGenerator.Folders
import S3Sink.StateMachine.Backend
import S3Sink.Sink.Backend
import S3Sink.StateMachine.ReadBack
import S3Sink.StateMachine.Compression
import S3Sink.Sink.Compression
import S3Sink.Sink.Drain
import S3Sink.Sink.Retries
import S3Sink.Sink.Failures
import S3Sink.StateMachine.Timeout
import S3Sink.Sink.ObjectKeys
import S3Sink.Sink.Removal
import S3Sink.StateMachine.Metered
import S3Sink.Sink.Reports
import S3Sink.Sink.Routing
import S3Sink.StateMachine.Custody
import S3Sink.Sink.Shutdown
import S3Sink.StateMachine.Revocation
import S3Sink.StateMachine.Rotation
import S3Sink.StateMachine.Writes
