import VgiCompress.Outcome
import VgiCompress.RowLoop
import VgiCompress.Sink
import VgiCompress.Probe
import VgiCompress.Quota
import VgiCompress.Guard
import VgiCompress.Padding
import VgiCompress.Framing
import VgiCompress.Codec
import VgiCompress.Spelling
import VgiCompress.Writer
import VgiCompress.Backend
import VgiCompress.Engine
import VgiCompress.Decode
import VgiCompress.Samples
import VgiCompress.Caps
import VgiCompress.Peak
import VgiCompress.RoundTrip
import VgiCompress.Drivers
import VgiCompress.Blocks
import VgiCompress.Declared
import VgiCompress.Encoders
import VgiCompress.Truncation
import VgiCompress.Members
import VgiCompress.Trailing
import VgiCompress.Detection
import VgiCompress.Trial
import VgiCompress.Headerless
import VgiCompress.Arrow
import VgiCompress.Worker
import VgiCompress.Batches
import VgiCompress.Compression
import VgiCompress.Validity
import VgiCompress.Arguments
import VgiCompress.Levels
import VgiCompress.Unwinding
import VgiCompress.Registry
import VgiCompress.Nulls
import VgiCompress.Faults
import VgiCompress.Stored
import VgiCompress.Introspection
import VgiCompress.Composition
import VgiCompress.Json
import VgiCompress.Metadata
import VgiCompress.Interleaving
import VgiCompress.Naming
import VgiCompress.Discovery
import VgiCompress.Selection
import VgiCompress.Watched
import VgiCompress.Footprint
import VgiCompress.FirstMatch
import VgiCompress.Signatures
import VgiCompress.Layers
import VgiCompress.Numeral
import VgiCompress.Sources
