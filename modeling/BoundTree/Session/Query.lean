import BoundTree.Session.Debug
import BoundTree.Session.Dump
import BoundTree.Session.Evaluate
import BoundTree.Session.Trace
import BoundTree.Session.Verify
import BoundTree.Session.Walk

/-!
Questions about one operation, and their answers. Asking keeps the operation alive until it is answered.
-/
namespace BoundTree.Session

open Procedure

/-- The folders that can be asked for. -/
inductive Folding
  | outline
  | census
  | evaluation
  deriving DecidableEq, Repr

namespace Folding

def name : Folding → String
  | .outline => "nest"
  | .census => "count"
  | .evaluation => "eval"

def all : List Folding := [.outline, .census, .evaluation]

instance : Named Folding := ⟨all, name⟩

end Folding

/-- A limit stops an enumeration after that many results, and nothing beyond them is produced. -/
inductive Query
  | info
  /-- What only operations of some shapes have. -/
  | particulars
  | children (limit : Option Nat)
  | slots (limit : Option Nat)
  | slot (place : Nat)
  /-- What the slots hold already, in declaration order. -/
  | published
  | payload
  | parent
  | root
  | descendants (withSelf : Bool) (limit : Option Nat)
  | ancestors (limit : Option Nat)
  | findAncestor (k : Kind)
  | downcast (s : Shape)
  | dump
  | verify
  | visits (pruned : List String)
  | notes
  | fold (f : Folding) (argument : Int)
  | malformed
  deriving DecidableEq, Repr

inductive Particulars
  /-- The event that is raised, if it is named directly. -/
  | event (e : Option EventId)
  | condition (n : Option NodeId)
  | function (wrapped : NodeId) (context : ContextId)
  | loop (k : LoopKind)
  | clause (k : CaseKind)
  | nothing
  deriving DecidableEq, Repr

/-- A slot as it is, without producing anything. -/
structure SlotState where
  linkage : Linkage
  published : Option (List NodeId)
  deriving DecidableEq, Repr

inductive Reply
  | info (node : Node) (parent : Option NodeId)
  | particulars (p : Particulars)
  | nodes (ns : List NodeId)
  | slots (views : List SlotView)
  | slot (view : Option SlotView)
  | published (slots : List SlotState)
  | text (s : String)
  | node (n : Option NodeId)
  | path (ns : List NodeId)
  | truth (b : Bool)
  | violations (vs : List LinkViolation)
  | visits (vs : List Visit)
  | notes (ns : List Note)
  | number (n : Option Int)

/-- The event handle, where the operation is a reference to an event. -/
def eventOf? (node : Node) : Option EventId :=
  if node.shape = .eventReference then
    match node.payload.attribute? "event" with
    | some (.handle .event e) => some e
    | _ => none
  else none

/-- The operations of the slot at a place in declaration order. -/
def operationsAt (node : Node) (place : Nat) : Procedure (List NodeId) :=
  match node.cells[place]? with
  | some c => operations c
  | none => pure []

def particulars (node : Node) : Procedure Particulars := do
  match node.shape with
  | .raiseEvent =>
    let ops ← operationsAt node 0
    return .event ((ops.head?.bind (← read).store.node?).bind eventOf?)
  | .switchCase => return .condition (← operationsAt node 2).head?
  | .flowAnonymousFunction =>
    match node.payload.function? "original", node.payload.attribute? "context" with
    | some f, some (.handle .context c) => return .function f.node c
    | _, _ => return .nothing
  | _ =>
    match LoopKind.ofKind? node.kind, CaseKind.ofKind? node.kind with
    | some k, _ => return .loop k
    | none, some k => return .clause k
    | none, none => return .nothing

def slotStates (s : Session) (node : Node) : List SlotState :=
  node.linkedCells.map fun (linkage, c) => ⟨linkage, s.store.published? c⟩

def fold (n : NodeId) (f : Folding) (argument : Int) : Procedure Reply :=
  match f with
  | .outline => do return .text (← outline n argument)
  | .census => do return .number (some (← census n argument))
  | .evaluation => do return .number (← evaluate? n argument)

def answer (n : NodeId) (node : Node) : Query → Procedure Reply
  | .info => do return .info node ((← read).parent? n)
  | .particulars => do return .particulars (← particulars node)
  | .children limit => do return .nodes (← children n limit)
  | .slots limit => do return .slots (← slotViews n limit)
  | .slot place => do return .slot (← slotView? n place)
  | .published => do return .published ((← read).slotStates node)
  | .payload => do return .text ((← read).payloadText node)
  | .parent => do return .node ((← read).parent? n)
  | .root => do return .node (← root n)
  | .descendants true limit => do return .path (← descendantsAndSelf n limit)
  | .descendants false limit => do return .path (← descendants n limit)
  | .ancestors limit => do return .nodes (← ancestors n limit)
  | .findAncestor k => do return .node (← findAncestor? n k)
  | .downcast s => return .truth (node.shape = s)
  | .dump => do return .text (← dump n)
  | .verify => do return .violations (← verifyTree n)
  | .visits pruned => do return .visits (← visits n pruned)
  | .notes => do return .notes (← notes n)
  | .fold f argument => fold n f argument
  | .malformed => fail .malformed

/-- Asks about an operation. -/
def inquire (n : NodeId) (q : Query) : Procedure Reply := releasing do
  hold (.node n)
  let node ← ofOption .unknown ((← read).store.node? n)
  answer n node q

/-- Asks about the operation bound to a name. -/
def ask (id : String) (q : Query) : Procedure Reply := do
  let n ← ofOption .unknown ((← read).node? id)
  inquire n q

end BoundTree.Session
