import BoundTree.Expr
import BoundTree.Payload

/-!
The store of operations. Operations and slots are known by their places and stay for good; all that
ever changes of them are two one-shot transitions, the parent link of an operation and the
publication of a deferred slot, and the record of the owner of a slot.
-/
namespace BoundTree

/-- A slot by its place in the store. -/
abbrev CellId := Nat

/-- What a slot holds. Of a deferred slot it is known how often its producer was started, and which of
these runs came to a value, the latest first. -/
inductive Content
  | filled (ops : List NodeId)
  | deferred (producer : Producer) (runs : Nat) (finished : List Nat)
      (published : Option (List NodeId))

namespace Content

/-- The operations, once they are there. -/
def published? : Content → Option (List NodeId)
  | .filled ops => some ops
  | .deferred _ _ _ published => published

def isDeferred : Content → Bool
  | .filled _ => false
  | .deferred .. => true

/-- The first publication stays. -/
def publish (c : Content) (ops : List NodeId) : Content :=
  match c with
  | .deferred p runs finished none => .deferred p runs finished (some ops)
  | c => c

def countRun : Content → Content
  | .deferred p runs finished published => .deferred p (runs + 1) finished published
  | c => c

def finishRun (c : Content) (run : Nat) : Content :=
  match c with
  | .deferred p runs finished published => .deferred p runs (run :: finished) published
  | c => c

/-- How many operations, slots and places a slot stands for, beside its own. -/
def allowance : Content → Nat
  | .filled ops => ops.length
  | .deferred p _ _ none => 2 * p.weight
  | .deferred _ _ _ (some ops) => ops.length

end Content

/-- The operation that a slot was installed in. -/
structure Owner where
  node : NodeId
  linkage : Linkage
  deriving DecidableEq, Repr

structure Cell where
  arity : Arity
  content : Content
  owner : Option Owner

/-- An operation: its facts, its payload, its slots in the order of the shape, and its parent link. -/
structure Node where
  header : Header
  payload : Payload
  cells : List CellId
  parent : Option NodeId

namespace Node

def kind (n : Node) : Kind := n.payload.kind

def shape (n : Node) : Shape := n.payload.shape

/-- The child slots in evaluation order. -/
def childCells (n : Node) : List CellId := n.payload.evaluationOrder.filterMap (n.cells[·]?)

/-- The child slots in evaluation order, with their names. -/
def namedChildCells (n : Node) : List (String × CellId) :=
  n.payload.evaluationOrder.filterMap fun i => do
    let field ← n.shape.slots[i]?
    let c ← n.cells[i]?
    return (field.name, c)

/-- All slots in declaration order, with what their values are to the operation. -/
def linkedCells (n : Node) : List (Linkage × CellId) :=
  (n.shape.slots.map (·.linkage)).zip n.cells

/-- The structural form, which leaves out payload and parent. -/
def debug (n : Node) : String :=
  Text.openRecord "Operation" (("kind", n.kind.name) :: n.header.debugFields)

end Node

structure Store where
  nodes : Array Node := #[]
  cells : Array Cell := #[]

namespace Store

def node? (s : Store) (n : NodeId) : Option Node := s.nodes[n]?

def cell? (s : Store) (c : CellId) : Option Cell := s.cells[c]?

def addNode (s : Store) (n : Node) : NodeId × Store :=
  (s.nodes.size, { s with nodes := s.nodes.push n })

def addCell (s : Store) (c : Cell) : CellId × Store :=
  (s.cells.size, { s with cells := s.cells.push c })

/-- Sets the parent link of an operation that has none. -/
def link (s : Store) (owner child : NodeId) : Store :=
  { s with nodes := s.nodes.modify child fun n => { n with parent := n.parent <|> some owner } }

def linkAll (s : Store) (owner : NodeId) (children : List NodeId) : Store :=
  children.foldl (fun s c => s.link owner c) s

def modifyContent (s : Store) (c : CellId) (f : Content → Content) : Store :=
  { s with cells := s.cells.modify c fun cell => { cell with content := f cell.content } }

/-- Records the owner of a slot that has none. -/
def own (s : Store) (c : CellId) (owner : Owner) : Store :=
  { s with cells := s.cells.modify c fun cell => { cell with owner := cell.owner <|> some owner } }

/-- The operations of a slot, once they are there. -/
def published? (s : Store) (c : CellId) : Option (List NodeId) :=
  (s.cell? c).bind (·.content.published?)

/-- Links what a slot holds already, if it holds children, and records the owner. -/
def install (s : Store) (owner : NodeId) (linkage : Linkage) (c : CellId) : Store :=
  let s := match linkage, s.published? c with
    | .attached, some ops => s.linkAll owner ops
    | _, _ => s
  s.own c ⟨owner, linkage⟩

def installAll (s : Store) (owner : NodeId) (cells : List (Linkage × CellId)) : Store :=
  cells.foldl (fun s c => s.install owner c.1 c.2) s

/-- An operation with the given slots, which become its own. -/
def addOperation (s : Store) (header : Header) (payload : Payload) (cells : List CellId) :
    NodeId × Store :=
  let node : Node := ⟨header, payload, cells, none⟩
  let (n, s) := s.addNode node
  (n, s.installAll n node.linkedCells)

/-- What an operation keeps alive: what its slots hold, and what its attributes refer to. -/
def holds (s : Store) (n : NodeId) : List NodeId :=
  match s.node? n with
  | none => []
  | some node => node.cells.flatMap (fun c => (s.published? c).getD []) ++ node.payload.nodes

/-- How many operations, slots and places the store can come to have. -/
def budget (s : Store) : Nat :=
  s.nodes.size + s.cells.foldl (fun total c => total + 1 + c.content.allowance) 0

end Store
end BoundTree
