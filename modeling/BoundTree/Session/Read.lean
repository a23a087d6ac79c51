import BoundTree.Session.Build

/-!
Reading slots. The first read of a deferred slot runs its producer; a producer that reads its own slot
starts a second run, which publishes first, and the value of the first run is dropped. Every read
returns what was published. The depth of such reads is bounded by what the store can come to hold.
-/
namespace BoundTree.Session

open Procedure

/-- A producer that cannot make its value panics. -/
def producerFault : Fault → Fault
  | .rejected e => .panicked (.rejectedValue e)
  | .unknown => .panicked .unknownValue
  | .malformed => .panicked .malformedValue
  | f => f

def publish (c : CellId) (ops : List NodeId) : Procedure Unit :=
  modify fun s => { s with store := s.store.modifyContent c (·.publish ops) }

def ownerKind (s : Session) (owner : Option Owner) : Option Kind :=
  owner.bind fun o => (s.store.node? o.node).map (·.kind)

/-- Offers the value of a finished run: it is linked to the owner of the slot, and published if none was
before. -/
def offer (c : CellId) (run : Nat) (candidate : List NodeId) : Procedure (List NodeId) := do
  let cell ← ofOption .malformed ((← read).store.cell? c)
  match cell.owner with
  | some ⟨owner, .attached⟩ => modify fun s => { s with store := s.store.linkAll owner candidate }
  | _ => pure ()
  match cell.content.published? with
  | some ops => do
    emit (.discarded c run ((← read).ownerKind cell.owner))
    return ops
  | none => do
    publish c candidate
    emit (.published c run ((← read).ownerKind cell.owner) candidate.length)
    match cell.owner with
    | some o => if (← read).verifies then assertLinks (.publication c) o.node o.linkage candidate
    | none => pure ()
    return candidate

/-- Starts a run and gives its number. -/
def startRun (c : CellId) (producer : Producer) (runs : Nat) : Procedure Nat := do
  modify fun s => { s with store := s.store.modifyContent c (·.countRun) }
  match producer.counter with
  | some name => modify (·.count name)
  | none => pure ()
  return runs + 1

/-- Records that a run came to a value. -/
def finishRun (c : CellId) (run : Nat) : Procedure Unit :=
  modify fun s => { s with store := s.store.modifyContent c (·.finishRun run) }

/-- Reads slots one after the other. -/
def enumerate (readOne : CellId → Procedure (List NodeId)) : List CellId → Procedure Unit
  | [] => pure ()
  | c :: cells => do
    let _ ← readOne c
    enumerate readOne cells

def childCells (n : NodeId) : Procedure (List CellId) := do
  return ((← read).store.node? n).elim [] (·.childCells)

/-- What a run does before its value is evaluated: the first one may enumerate the children of an
operation. -/
def prepare (readOne : CellId → Procedure (List NodeId)) (producer : Producer) (run : Nat) :
    Procedure Unit := do
  match run, producer.reenter.bind (← read).node? with
  | 1, some n => releasing do
    hold (.node n)
    enumerate readOne (← childCells n)
  | _, _ => pure ()

/-- The operations of a slot, which are produced if need be. Every level of depth is a slot in its
first run. -/
def readCell : Nat → CellId → Procedure (List NodeId)
  | 0, _ => fail .exhausted
  | depth + 1, c => do
    let cell ← ofOption .malformed ((← read).store.cell? c)
    match cell.content with
    | .filled ops => return ops
    | .deferred _ _ _ (some ops) => return ops
    | .deferred producer runs _ none => do
      let run ← startRun c producer runs
      let candidate ← mapFault producerFault (releasing do
        prepare (readCell depth) producer run
        evalNodes (producer.valueOf run))
      finishRun c run
      offer c run candidate

/-- The operations of a slot. -/
def operations (c : CellId) : Procedure (List NodeId) := do
  match (← read).store.published? c with
  | some ops => return ops
  | none => readCell ((← read).store.budget + 1) c

/-- The operations of slots in order, read slot by slot and no further than the limit asks. -/
def gather : List CellId → Option Nat → Procedure (List NodeId)
  | _, some 0 => pure []
  | [], _ => pure []
  | c :: cells, limit => do
    let ops ← operations c
    match limit with
    | none => return ops ++ (← gather cells none)
    | some k => return ops.take k ++ (← gather cells (some (k - ops.length)))

/-- The children in evaluation order. -/
def children (n : NodeId) (limit : Option Nat) : Procedure (List NodeId) := do
  gather (← childCells n) limit

/-- The name of a child slot, and what it holds. -/
structure SlotView where
  name : String
  ops : List NodeId
  deriving DecidableEq, Repr

def viewSlots : List (String × CellId) → Procedure (List SlotView)
  | [] => pure []
  | (name, c) :: cells => do
    let ops ← operations c
    return ⟨name, ops⟩ :: (← viewSlots cells)

def namedChildCells (n : NodeId) : Procedure (List (String × CellId)) := do
  return ((← read).store.node? n).elim [] (·.namedChildCells)

/-- The child slots in evaluation order. -/
def slotViews (n : NodeId) (limit : Option Nat) : Procedure (List SlotView) := do
  let cells ← namedChildCells n
  viewSlots (limit.elim cells cells.take)

/-- The child slot at a place in evaluation order. -/
def slotView? (n : NodeId) (place : Nat) : Procedure (Option SlotView) := do
  match (← namedChildCells n)[place]? with
  | some (name, c) => return some ⟨name, ← operations c⟩
  | none => return none

end BoundTree.Session
