import ExchangeArchive.Archive.Codec
import ExchangeArchive.Archive.Record
import ExchangeArchive.Body.Observed
import ExchangeArchive.Body.Script
import ExchangeArchive.Body.Watch
import ExchangeArchive.Config.Codec
import ExchangeArchive.Config.Config
import ExchangeArchive.Config.Redactions
import ExchangeArchive.Decimal.Double
import ExchangeArchive.Decimal.Numeral
import ExchangeArchive.Decimal.Power
import ExchangeArchive.Document.Codec
import ExchangeArchive.Document.Fault
import ExchangeArchive.Document.Manner
import ExchangeArchive.Document.Node
import ExchangeArchive.Error
import ExchangeArchive.Http.Headers
import ExchangeArchive.Http.Message
import ExchangeArchive.Http.Reason
import ExchangeArchive.Http.Uri
import ExchangeArchive.Json.Flaw
import ExchangeArchive.Json.Overlay
import ExchangeArchive.Json.Text
import ExchangeArchive.Json.Token
import ExchangeArchive.Json.Tree
import ExchangeArchive.Json.Value
import ExchangeArchive.Page.Marker
import ExchangeArchive.Page.Registry
import ExchangeArchive.Pipeline.Middleware
import ExchangeArchive.Pipeline.Run
import ExchangeArchive.Pipeline.Sink
import ExchangeArchive.Proofs.Archive.Extensions
import ExchangeArchive.Proofs.Archive.RoundTrip
import ExchangeArchive.Proofs.Body.Captured
import ExchangeArchive.Proofs.Body.Completion
import ExchangeArchive.Proofs.Body.Plain
import ExchangeArchive.Proofs.Body.Watching
import ExchangeArchive.Proofs.Config.Redacted
import ExchangeArchive.Proofs.Config.RoundTrip
import ExchangeArchive.Proofs.Config.Strictness
import ExchangeArchive.Proofs.Decimal.Digits
import ExchangeArchive.Proofs.Decimal.Nearest
import ExchangeArchive.Proofs.Decimal.Shortest
import ExchangeArchive.Proofs.Decimal.Spelling
import ExchangeArchive.Proofs.Document.Faithful
import ExchangeArchive.Proofs.Document.Members
import ExchangeArchive.Proofs.Document.Order
import ExchangeArchive.Proofs.Http.Authority
import ExchangeArchive.Proofs.Http.Target
import ExchangeArchive.Proofs.Json.Reading
import ExchangeArchive.Proofs.Json.Scanning
import ExchangeArchive.Proofs.Page.Lifecycle
import ExchangeArchive.Proofs.Pipeline.Course
import ExchangeArchive.Proofs.Receiver.Naming
import ExchangeArchive.Proofs.Receiver.Partition
import ExchangeArchive.Proofs.Receiver.Ready
import ExchangeArchive.Proofs.Receiver.Retention
import ExchangeArchive.Proofs.Receiver.Rotation
import ExchangeArchive.Proofs.Receiver.Runs
import ExchangeArchive.Proofs.Receiver.Single
import ExchangeArchive.Proofs.Receiver.Steps
import ExchangeArchive.Proofs.Recorder.Delivery
import ExchangeArchive.Proofs.Recorder.Dialed
import ExchangeArchive.Proofs.Recorder.Direct
import ExchangeArchive.Proofs.Recorder.Exclusion
import ExchangeArchive.Proofs.Recorder.Handover
import ExchangeArchive.Proofs.Recorder.Independence
import ExchangeArchive.Proofs.Recorder.Moves
import ExchangeArchive.Proofs.Recorder.Observation
import ExchangeArchive.Proofs.Recorder.Pages
import ExchangeArchive.Proofs.Recorder.Redaction
import ExchangeArchive.Proofs.Recorder.Runs
import ExchangeArchive.Proofs.Recorder.Transparency
import ExchangeArchive.Proofs.Storage.Files
import ExchangeArchive.Proofs.Storage.Writing
import ExchangeArchive.Proofs.Text.Base64
import ExchangeArchive.Proofs.Text.Decoding
import ExchangeArchive.Proofs.Text.Order
import ExchangeArchive.Proofs.Text.Splitting
import ExchangeArchive.Proofs.Text.Trimming
import ExchangeArchive.Proofs.Text.Urlencoded
import ExchangeArchive.Proofs.Text.Utf8
import ExchangeArchive.Proofs.Time.Calendar
import ExchangeArchive.Proofs.Time.Duration
import ExchangeArchive.Proofs.Time.Rfc2822
import ExchangeArchive.Proofs.Time.Rfc3339
import ExchangeArchive.Proofs.Trace.Chaining
import ExchangeArchive.Proofs.Transport.Addressing
import ExchangeArchive.Proofs.Transport.Dialing
import ExchangeArchive.Proofs.Transport.Reported
import ExchangeArchive.Proofs.Transport.Traced
import ExchangeArchive.Proofs.Trip.Cookies
import ExchangeArchive.Proofs.Trip.Handshake
import ExchangeArchive.Proofs.Trip.Nesting
import ExchangeArchive.Proofs.Trip.Query
import ExchangeArchive.Proofs.Trip.Recovery
import ExchangeArchive.Proofs.Trip.Spans
import ExchangeArchive.Receiver.Checkpoint
import ExchangeArchive.Receiver.FileNames
import ExchangeArchive.Receiver.HarFile
import ExchangeArchive.Receiver.Memory
import ExchangeArchive.Receiver.Outcome
import ExchangeArchive.Receiver.Receiver
import ExchangeArchive.Recorder.Call
import ExchangeArchive.Recorder.History
import ExchangeArchive.Recorder.Recorder
import ExchangeArchive.Recorder.Session
import ExchangeArchive.Storage.Disk
import ExchangeArchive.Storage.Path
import ExchangeArchive.Text.Ascii
import ExchangeArchive.Text.Base64
import ExchangeArchive.Text.Blank
import ExchangeArchive.Text.FormUrlencoded
import ExchangeArchive.Text.Hex
import ExchangeArchive.Text.Printable
import ExchangeArchive.Text.Quoted
import ExchangeArchive.Text.Utf8
import ExchangeArchive.Time.Calendar
import ExchangeArchive.Time.Clock
import ExchangeArchive.Time.Duration
import ExchangeArchive.Time.Millis
import ExchangeArchive.Time.Reader
import ExchangeArchive.Time.Timestamp
import ExchangeArchive.Trace.Event
import ExchangeArchive.Trace.Observer
import ExchangeArchive.Transport.Address
import ExchangeArchive.Transport.Http1
import ExchangeArchive.Transport.Script
import ExchangeArchive.Transport.Stream
import ExchangeArchive.Trip.Cookies
import ExchangeArchive.Trip.Report
import ExchangeArchive.Trip.Tracker
import ExchangeArchive.Yaml.Cursor
import ExchangeArchive.Yaml.Resolve
import ExchangeArchive.Yaml.Scalar
import ExchangeArchive.Yaml.Tag
import ExchangeArchive.Yaml.Text
import ExchangeArchive.Yaml.Token
import ExchangeArchive.Yaml.Tree
