import BoundTree.Derive.Dispatch
import BoundTree.Derive.Spelling
import BoundTree.Json.Reader
import BoundTree.Json.Writer
import BoundTree.Proofs.Ascent
import BoundTree.Proofs.Attempts
import BoundTree.Proofs.Blame
import BoundTree.Proofs.Conversions
import BoundTree.Proofs.Cursor
import BoundTree.Proofs.Distinctness
import BoundTree.Proofs.Failure
import BoundTree.Proofs.Fields
import BoundTree.Proofs.FlowNodes
import BoundTree.Proofs.History
import BoundTree.Proofs.Interchange
import BoundTree.Proofs.Interning
import BoundTree.Proofs.Kinds
import BoundTree.Proofs.Laziness
import BoundTree.Proofs.Placement
import BoundTree.Proofs.Positions
import BoundTree.Proofs.Routing
import BoundTree.Proofs.Spans
import BoundTree.Proofs.Transcript
import BoundTree.Session.Step
import BoundTree.Wire
