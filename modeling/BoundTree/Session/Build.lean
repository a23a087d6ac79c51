import BoundTree.Session.Basic

/-!
Building operations. A specification is evaluated field by field, the operations in it being built on
the way and kept until the operation that takes them is there. Building runs no producer.
-/
namespace BoundTree.Session

open Procedure

/-- The first broken link of what a slot holds is a panic. -/
def assertLinks (check : LinkCheck) (owner : NodeId) (linkage : Linkage) :
    List NodeId → Procedure Unit
  | [] => pure ()
  | child :: children => do
    match (← read).checkLink owner linkage child with
    | some v =>
      emit (.linkViolated check v)
      fail (.panicked (.brokenLink v))
    | none => assertLinks check owner linkage children

/-- Checks what the slots hold already, slot by slot. -/
def assertSlots (owner : NodeId) : List (Linkage × CellId) → Procedure Unit
  | [] => pure ()
  | (linkage, c) :: cells => do
    match (← read).store.published? c with
    | some ops => assertLinks .construction owner linkage ops
    | none => pure ()
    assertSlots owner cells

/-- An operation with the given slots, unless its header or payload is rejected. When a link turns out
to be broken the operation is gone, though links to it stay. -/
def construct (header : Header) (payload : Payload) (cells : List CellId) : Procedure NodeId :=
  match payload.error? header with
  | some e => do
    emit (.rejected payload.kind e)
    fail (.rejected e)
  | none => releasing do
    let n ← update fun s =>
      let (n, store) := s.store.addOperation header payload cells
      (n, { s with store })
    hold (.node n)
    let s ← read
    if s.verifies then
      assertSlots n (((s.store.node? n).map (·.linkedCells)).getD [])
    return n

def newCell (arity : Arity) (content : Content) : Procedure CellId := do
  let c ← update fun s =>
    let (c, store) := s.store.addCell ⟨arity, content, none⟩
    (c, { s with store })
  hold (.cell c)
  return c

/-- Takes a slot from its name; a slot of another arity is lost. -/
def takeSlot (arity : Arity) (name : String) : Procedure CellId := do
  let c ← ofOption .unknown (lookup (← read).slots name)
  modify fun s => { s with slots := remove s.slots name }
  match (← read).store.cell? c with
  | some cell =>
    if cell.arity = arity then
      hold (.cell c)
      return c
    else fail .malformed
  | none => fail .malformed

def intern (name : String) : Procedure Symbol :=
  update fun s => let (symbol, names) := s.names.intern name; (symbol, { s with names })

def internAll : List NameExpr → Procedure (List (Option Symbol))
  | [] => pure []
  | .absent :: names => do return none :: (← internAll names)
  | .malformed :: _ => fail .malformed
  | .name name :: names => do
    let symbol ← intern name
    return some symbol :: (← internAll names)

def functionRef (n : NodeId) : Procedure FunctionRef := do
  let node ← ofOption .unknown ((← read).store.node? n)
  return ⟨n, node.kind, node.header.locus⟩

mutual

def evalNode : NodeExpr → Procedure NodeId
  | .named id => do ofOption .unknown ((← read).node? id)
  | .malformed => fail .malformed
  | .build spec => evalSpec spec

/-- The fields come in declaration order, slots before attributes. -/
def evalSpec : NodeSpec → Procedure NodeId
  | .mk id header shape tag slots attributes => do
    let n ← releasing do
      let cells ← evalSlots (shape.slots.map (·.arity)) slots
      let values ← evalAttributes attributes
      let payload ← ofOption .malformed (Payload.make? shape tag values)
      construct header payload cells
    modify (·.bind id n)
    return n

/-- Every operation is held from when it is there. -/
def evalNodes : List NodeExpr → Procedure (List NodeId)
  | [] => pure []
  | e :: es => do
    let n ← evalNode e
    hold (.node n)
    let ns ← evalNodes es
    return n :: ns

def evalSlot (arity : Arity) : SlotExpr → Procedure CellId
  | .filled values => do
    if ¬arity.admits values.length then fail .malformed
    let ops ← evalNodes values
    newCell arity (.filled ops)
  | .moved name => takeSlot arity name
  | .deferred producer => newCell arity (.deferred producer 0 [] none)
  | .malformed => fail .malformed

/-- Every slot of the shape needs an expression. -/
def evalSlots : List Arity → List SlotExpr → Procedure (List CellId)
  | [], _ => pure []
  | arity :: arities, e :: es => do
    let c ← evalSlot arity e
    let cs ← evalSlots arities es
    return c :: cs
  | _ :: _, [] => fail .malformed

/-- An operation is never given as a plain value. -/
def evalAttribute : AttributeExpr → Procedure AttributeValue
  | .value v => if v.node?.isSome then fail .malformed else pure v
  | .symbol name => do return .symbol (← intern name)
  | .optionalSymbols names => do return .optionalSymbols (← internAll names)
  | .function e => do
    let n ← evalNode e
    hold (.node n)
    return .function (← functionRef n)
  | .malformed => fail .malformed

def evalAttributes : List AttributeExpr → Procedure (List AttributeValue)
  | [] => pure []
  | e :: es => do
    let v ← evalAttribute e
    let vs ← evalAttributes es
    return v :: vs

end

end BoundTree.Session
