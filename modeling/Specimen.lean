import Specimen.Main
import Specimen.Tour
import Specimen.Proofs.Json.Names
import Specimen.Proofs.Inference.Settled
import Specimen.Proofs.Inference.Union
import Specimen.Proofs.Text.Digits
import Specimen.Proofs.Naming.Identifier
import Specimen.Proofs.Schema.Canonical
import Specimen.Proofs.Schema.Growth
import Specimen.Proofs.Inference.Objects
import Specimen.Proofs.Inference.Placement
import Specimen.Proofs.Schema.Digest
import Specimen.Proofs.Inference.Run
import Specimen.Proofs.Inference.Sharing
import Specimen.Proofs.Inference.Conformance
import Specimen.Proofs.Inference.Order
import Specimen.Proofs.Schema.Layers
import Specimen.Proofs.Schema.Walk
import Specimen.Proofs.Inference.Traversal
import Specimen.Proofs.Text.Lowered
import Specimen.Proofs.Naming.Casing
import Specimen.Proofs.Emission.Attributes
import Specimen.Proofs.Emission.Scoping
import Specimen.Proofs.Projection.Expansion
import Specimen.Proofs.Projection.Loops
import Specimen.Proofs.Projection.Revisits
import Specimen.Proofs.Projection.Policies
import Specimen.Proofs.Reflection.Bindings
import Specimen.Proofs.Reflection.Annotations
import Specimen.Proofs.Reflection.Dataclass
import Specimen.Proofs.Steps
import Specimen.Proofs.Loading.Steps
import Specimen.Proofs.Loading.Body
import Specimen.Proofs.Loading.Class
import Specimen.Proofs.Loading.Module
import Specimen.Proofs.Roundtrip.Documents
import Specimen.Proofs.Roundtrip.Projection
import Specimen.Proofs.Roundtrip.Sample
import Specimen.Proofs.Inference.Positions
import Specimen.Proofs.Inference.Merging
import Specimen.Proofs.Inference.Conflicts
import Specimen.Proofs.Inference.Reordering
import Specimen.Proofs.Reflection.Rigid
import Specimen.Proofs.Reflection.Recall
import Specimen.Proofs.Reflection.Denotation
import Specimen.Proofs.Resolution.Memory
import Specimen.Proofs.Reflection.Independence
import Specimen.Proofs.Reflection.Members
import Specimen.Proofs.Reflection.Hints
import Specimen.Proofs.Reflection.Removal
import Specimen.Proofs.Projection.Visibility
import Specimen.Proofs.Naming.Calls
import Specimen.Proofs.Json.Literals
import Specimen.Proofs.Json.Written
import Specimen.Proofs.Json.Scanning
import Specimen.Proofs.Json.Reading
import Specimen.Proofs.Json.Parts
import Specimen.Proofs.Data.Entries
import Specimen.Proofs.Json.Rereading
import Specimen.Proofs.Json.Rendering
import Specimen.Proofs.Emission.Quoting
import Specimen.Proofs.Emission.Reading
import Specimen.Proofs.Emission.Decoding
import Specimen.Proofs.Reflection.Marks
import Specimen.Proofs.Reflection.Marking
import Specimen.Proofs.Reflection.Heads
import Specimen.Proofs.Reflection.Hiding
import Specimen.Proofs.Json.Decoder
import Specimen.Proofs.Json.Plain
import Specimen.Proofs.Json.Verdict
import Specimen.Proofs.Command.Output
import Specimen.Proofs.Command.Reporting
import Specimen.Proofs.Emission.Encoding
import Specimen.Proofs.Inference.Unencodable
import Specimen.Proofs.Command.Messages
import Specimen.Proofs.Schema.Validity
import Specimen.Proofs.Emission.Header
import Specimen.Proofs.Emission.Regular
import Specimen.Proofs.Emission.Properties
import Specimen.Proofs.Json.Agreement
import Specimen.Proofs.Projection.Placeholders
import Specimen.Proofs.Projection.Titles
import Specimen.Proofs.Json.Encoding
import Specimen.Proofs.Projection.Failures
import Specimen.Proofs.Schema.Additions
import Specimen.Proofs.Schema.Postorder
import Specimen.Proofs.Data.Restored
import Specimen.Proofs.Text.Spelling
import Specimen.Proofs.Text.Capitals
import Specimen.Proofs.Naming.Stable
import Specimen.Proofs.Text.Misfits
import Specimen.Proofs.Naming.Spellable
import Specimen.Proofs.Inference.Origins
import Specimen.Proofs.Emission.Identifiers
import Specimen.Proofs.Text.Pieces
import Specimen.Proofs.Loading.Keeping
import Specimen.Proofs.Loading.Packages
import Specimen.Proofs.Loading.Import
import Specimen.Proofs.Loading.Search
import Specimen.Proofs.Resolution.Dotted
import Specimen.Proofs.Loading.Linearization
import Specimen.Proofs.Loading.Scope
import Specimen.Proofs.Loading.Fields
import Specimen.Proofs.Loading.Order
import Specimen.Proofs.Loading.Creation
import Specimen.Proofs.Resolution.Reached
import Specimen.Proofs.Reflection.Gathering
import Specimen.Proofs.Projection.FieldOrder
import Specimen.Proofs.Projection.MemberOrder
