import BoundTree.Session.Build

/-!
Flow nodes: operations that a flow graph needs and that have no syntax of their own. They are implicit,
belong to no semantic model, and are built for one flow graph. What a node is built from is evaluated
in the order in which it is given.
-/
namespace BoundTree

/-- The flow graph that nodes are built for. -/
structure FlowGraph where
  context : ContextId
  deriving DecidableEq, Repr

def FlowGraph.debug (g : FlowGraph) : String :=
  Text.record "FlowNodes" [("context", g.context.debug)]

/-- What could not be read stands as nothing in the place of a type, and fails when it is reached. -/
inductive FlowExpr
  /-- Keeps a value in a temporary. -/
  | capture (id : CaptureId) (value : NodeExpr)
  /-- Reads a temporary, or is what it is first written through. -/
  | captureReference (locus : Locus) (id : CaptureId) (type : Option TypeId)
      (isInitialization : Bool)
  /-- Tests a value for null. -/
  | nullTest (operand : NodeExpr) (boolean : Option TypeId)
  /-- The exception that a handler caught. -/
  | caughtException (locus : Locus) (type : TypeId)
  /-- A function as a flow graph sees it; it is no child. -/
  | anonymousFunction (wrapped : NodeExpr)
  /-- Guards the initialization of a local that outlives its calls. -/
  | semaphore (locus : Locus) (guarded : LocalId) (boolean : TypeId)

namespace Session

open Procedure

def flowHeader (locus : Locus) (resultType : Option TypeId) : Header :=
  { locus, resultType, isImplicit := true }

/-- A flow node with the given values in its slots. -/
def constructFlow (header : Header) (shape : Shape) (operands : List NodeId)
    (attributes : List AttributeValue) : Procedure NodeId := do
  let cells ← operands.mapM fun n => newCell .one (.filled [n])
  let payload ← ofOption .malformed (Payload.make? shape none attributes)
  construct header payload cells

/-- The facts of an operation that is kept while a node is built from it. -/
def evalOperand (e : NodeExpr) : Procedure (NodeId × Header) := do
  let n ← evalNode e
  hold (.node n)
  let node ← ofOption .unknown ((← read).store.node? n)
  return (n, node.header)

def evalFlow (g : FlowGraph) : FlowExpr → Procedure NodeId
  | .capture id value => releasing do
    let (n, header) ← evalOperand value
    constructFlow (flowHeader header.locus none) .flowCapture [n] [.handle _ id]
  | .captureReference locus id type isInitialization =>
    constructFlow (flowHeader locus type) .flowCaptureReference []
      [.handle _ id, .flag isInitialization]
  | .nullTest operand boolean => releasing do
    let (n, header) ← evalOperand operand
    let boolean ← ofOption .malformed boolean
    constructFlow (flowHeader header.locus (some boolean)) .nullTest [n] []
  | .caughtException locus type =>
    constructFlow (flowHeader locus (some type)) .caughtException [] []
  | .anonymousFunction wrapped => releasing do
    let (n, header) ← evalOperand wrapped
    let function ← functionRef n
    constructFlow (flowHeader header.locus header.resultType) .flowAnonymousFunction []
      [.function function, .handle _ g.context]
  | .semaphore locus guarded boolean =>
    constructFlow (flowHeader locus (some boolean)) .staticLocalInitializationSemaphore []
      [.handle _ guarded]

end Session
end BoundTree
