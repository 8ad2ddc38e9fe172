import Wayfinding.Navigation
import Wayfinding.Settings
import Wayfinding.Json.Reader
import Wayfinding.Json.Writer
import Wayfinding.Json.Snapshot
import Wayfinding.Wire.Snapshot
import Wayfinding.Creation
import Wayfinding.Repository
import Wayfinding.Follower
import Wayfinding.Lookup
import Wayfinding.Cache
import Wayfinding.Service.Request
import Wayfinding.Proofs.Address
import Wayfinding.Proofs.Adjusting
import Wayfinding.Proofs.Addressable
import Wayfinding.Proofs.Clients
import Wayfinding.Proofs.Coherence
import Wayfinding.Proofs.Decision
import Wayfinding.Proofs.Decoding
import Wayfinding.Proofs.Delivery
import Wayfinding.Proofs.Front
import Wayfinding.Proofs.Initial
import Wayfinding.Proofs.Json.Decimal
import Wayfinding.Proofs.Json.Nesting
import Wayfinding.Proofs.Json.Quoting
import Wayfinding.Proofs.Json.Reading
import Wayfinding.Proofs.Json.Transport
import Wayfinding.Proofs.Level
import Wayfinding.Proofs.Occurrence
import Wayfinding.Proofs.Refusal
import Wayfinding.Proofs.Removal
import Wayfinding.Proofs.Replay
import Wayfinding.Proofs.Rewriting
import Wayfinding.Proofs.RoundTrip
import Wayfinding.Proofs.Serial
import Wayfinding.Proofs.Siblings
import Wayfinding.Proofs.Streams
import Wayfinding.Proofs.Truncation
import Wayfinding.Proofs.WellFormed
import Wayfinding.Proofs.Lifecycle
import Wayfinding.Proofs.Atomicity
import Wayfinding.Proofs.Accounting
import Wayfinding.Proofs.Publication
import Wayfinding.Proofs.Projection
import Wayfinding.Proofs.Following
import Wayfinding.Proofs.Office
import Wayfinding.Proofs.Debounce
import Wayfinding.Proofs.Rounding
import Wayfinding.Proofs.Json.EventLog
import Wayfinding.Proofs.Json.Resaving
import Wayfinding.Proofs.Json.Variation
import Wayfinding.Proofs.Overtaken
import Wayfinding.Proofs.Verdict
import Wayfinding.Proofs.Outside
import Wayfinding.Proofs.Insertion
import Wayfinding.Proofs.Interchange
import Wayfinding.Proofs.Batch
import Wayfinding.Proofs.Pruning
import Wayfinding.Proofs.Sorting
import Wayfinding.Proofs.Deletion
import Wayfinding.Proofs.Precedence
import Wayfinding.Proofs.Traversal
import Wayfinding.Proofs.Place
import Wayfinding.Proofs.Resolution
import Wayfinding.Proofs.Strictness
import Wayfinding.Proofs.Spelling
