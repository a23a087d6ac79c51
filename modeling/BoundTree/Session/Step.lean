import BoundTree.Session.Flow
import BoundTree.Session.Query

/-!
Steps of a session. Whatever a step does before it fails stays, and the next step starts from there.
-/
namespace BoundTree

open Procedure Session

inductive Step
  | build (e : NodeExpr)
  /-- A flow node, bound to its name if it gets one. -/
  | flow (graph : FlowGraph) (id : Option String) (e : FlowExpr)
  | ask (id : String) (q : Query)
  /-- How often producers have run. -/
  | calls
  | drop (id : String)
  | makeSlot (name : String) (arity : Arity) (e : SlotExpr)
  | readSlot (name : String)
  | slotState (name : String)
  | sameHeader (a b : Header)
  | symbol (name : String)
  | malformed

inductive Answer
  | built (n : NodeId) (k : Kind)
  | reply (r : Reply)
  | calls (counters : List (String × Nat))
  | dropped
  | slotMade
  | slotState (isDeferred isPublished : Bool) (text : String)
  | symbol (s : Option Symbol)

namespace Session

def built (n : NodeId) : Procedure Answer := do
  let node ← ofOption .unknown ((← read).store.node? n)
  return .built n node.kind

def flow (g : FlowGraph) (id : Option String) (e : FlowExpr) : Procedure Answer := do
  let n ← evalFlow g e
  modify (·.bind id n)
  built n

/-- The slot that was bound to the name before is gone. -/
def makeSlot (name : String) (arity : Arity) (e : SlotExpr) : Procedure Answer := do
  releasing do
    let c ← evalSlot arity e
    modify fun s => { s with slots := (name, c) :: remove s.slots name }
  return .slotMade

/-- A slot that is no part of an operation links nothing. -/
def readSlot (name : String) : Procedure Answer := do
  let c ← ofOption .unknown (lookup (← read).slots name)
  releasing do
    hold (.cell c)
    return .reply (.nodes (← operations c))

def slotState (name : String) : Procedure Answer := do
  let s ← read
  let c ← ofOption .unknown (lookup s.slots name)
  let cell ← ofOption .unknown (s.store.cell? c)
  return .slotState cell.content.isDeferred cell.content.published?.isSome (s.cellText c)

def drop (id : String) : Procedure Answer := do
  let _ ← ofOption .unknown ((← read).node? id)
  modify fun s => { s with bindings := remove s.bindings id }
  return .dropped

def perform : Step → Procedure Answer
  | .build e => do built (← evalNode e)
  | .flow g id e => flow g id e
  | .ask id q => do return .reply (← ask id q)
  | .calls => do return .calls (← read).counters
  | .drop id => drop id
  | .makeSlot name arity e => makeSlot name arity e
  | .readSlot name => readSlot name
  | .slotState name => slotState name
  | .sameHeader a b => return .reply (.truth (a.valueEq b))
  | .symbol name => do return .symbol ((← read).names.get? name)
  | .malformed => fail .malformed

/-- What a step came to: its answer, the events on the way, and the session after it. -/
structure Outcome where
  answer : Except Fault Answer
  /-- In the order in which they came. -/
  events : List Event
  session : Session

def step (s : Session) (e : Step) : Outcome :=
  let (answer, t) := perform e s
  ⟨answer, (t.events.take (t.events.length - s.events.length)).reverse, t⟩

/-- The outcomes of steps, one after the other. -/
def run (s : Session) : List Step → List Outcome
  | [] => []
  | e :: steps => let o := s.step e; o :: o.session.run steps

/-- A session in which nothing has been done. -/
def start (verifies : Bool) : Session := { verifies }

end Session
end BoundTree
