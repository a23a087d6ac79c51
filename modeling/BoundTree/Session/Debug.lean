import BoundTree.Session.Basic

/-!
The structural forms of payloads and slots. They never run a producer: a slot without
operations yet says so.
-/
namespace BoundTree.Session

/-- The kinds of the operations of a slot. -/
def cellText (s : Session) (c : CellId) : String :=
  match s.store.published? c with
  | some ops =>
    Text.listed (ops.filterMap fun n => (s.store.node? n).map (·.kind.name))
  | none => "<unmaterialized>"

def payloadText (s : Session) (node : Node) : String :=
  node.payload.debug (node.cells.map s.cellText)

end BoundTree.Session
