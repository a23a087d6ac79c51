import BoundTree.Number.Word
import BoundTree.Session.Folder

/-!
Consumers that record which of their methods are called, and in which order.
-/
namespace BoundTree.Session

open Procedure

/-- A call of the method of a shape. -/
structure Visit where
  shape : Shape
  kind : Kind
  deriving DecidableEq, Repr

def Visit.text (v : Visit) : String := v.shape.visitMethod ++ " " ++ v.kind.name

/-- Records every call, and goes on to the children unless the method is one of those named. -/
def tracing (pruned : List String) : Visitor (List Visit) where
  method _ := none
  fallback visit n node visits :=
    let visits := visits ++ [⟨node.shape, node.kind⟩]
    if node.shape.visitMethod ∈ pruned then pure visits else walkChildren visit n visits

def visits (n : NodeId) (pruned : List String) : Procedure (List Visit) :=
  (tracing pruned).accept n []

/-- What a visitor that cares about two shapes only writes down. -/
inductive Note
  | binary (o : BinaryOperator)
  | returned (k : Kind)
  | fallback (k : Kind)
  deriving DecidableEq, Repr

def Note.text : Note → String
  | .binary o => "binary " ++ o.name
  | .returned k => "return " ++ k.name
  | .fallback k => "default " ++ k.name

def noteAnywhere : Handler (List Note) (List Note) := fun visit n node notes =>
  walkChildren visit n (notes ++ [.fallback node.kind])

def noteBinary : Handler (List Note) (List Note) := fun visit n node notes =>
  let operator := (node.payload.binaryOperator? "operator_kind").map Note.binary
  noteAnywhere visit n node (notes ++ operator.toList)

def noteReturn : Handler (List Note) (List Note) := fun visit n node notes =>
  noteAnywhere visit n node (notes ++ [.returned node.kind])

/-- The two methods of its own end in the fallback. -/
def noting : Visitor (List Note) where
  method
    | .binary => some noteBinary
    | .returnStatement => some noteReturn
    | _ => none
  fallback := noteAnywhere

def notes (n : NodeId) : Procedure (List Note) := noting.accept n []

/-- Writes calls as terms. The argument counts the depth; a handler reckons the argument of the next
level before it reads a child, and panics where that does not fit. -/
def outlining : Folder Int String where
  method _ := none
  fallback visit n node depth := do
    let next ← ofOption (.panicked .overflow) (inWord? (depth + 1))
    let below ← foldChildren visit n next
    return node.shape.visitMethod ++ ":" ++ toString depth ++ "(" ++ ",".intercalate below ++ ")"

/-- There are no more levels than arguments, so a circle is followed until the argument no longer
fits. -/
def outline (n : NodeId) (depth : Int) : Procedure String :=
  outlining.acceptWithin (Int.pow 2 63 - depth).toNat n depth

end BoundTree.Session
