import BoundTree.Handle
import BoundTree.Kind.Basic

/-!
What can be wrong with the link between an operation and the one that holds it.
-/
namespace BoundTree

inductive LinkViolation
  /-- A child is not linked to the operation that holds it. -/
  | wrongParent (child expected : Kind) (actual : Option Kind)
  /-- A value of a detached slot has a parent. -/
  | unexpectedParent (child owner : Kind)
  /-- Parent and child come from different semantic models, and neither is synthetic. -/
  | modelMismatch (child parent : Kind) (childModel parentModel : Option ModelId)
  /-- An operation is held in more than one place. -/
  | sharedNode (child : Kind)
  deriving DecidableEq, Repr

namespace LinkViolation

def name : LinkViolation → String
  | .wrongParent .. => "WrongParent"
  | .unexpectedParent .. => "UnexpectedParent"
  | .modelMismatch .. => "SemanticModelMismatch"
  | .sharedNode _ => "SharedNode"

def modelText (m : Option ModelId) : String := Text.optional (m.map Handle.debug)

def message : LinkViolation → String
  | .wrongParent child expected actual =>
    "parent link of " ++ child.name ++ " points at " ++ Text.optional (actual.map Kind.name)
      ++ ", expected its installing " ++ expected.name
  | .unexpectedParent child owner =>
    "parent link set on " ++ child.name ++ ", which " ++ owner.name ++ " holds in a detached slot"
  | .modelMismatch child parent childModel parentModel =>
    child.name ++ " belongs to " ++ modelText childModel ++ " but its parent " ++ parent.name
      ++ " belongs to " ++ modelText parentModel
  | .sharedNode child => child.name ++ " is reachable from more than one parent"

end LinkViolation

/-- What the check of a link asks of an operation. -/
structure LinkFacts where
  kind : Kind
  model : Option ModelId
  deriving DecidableEq, Repr

/-- A flow node may hold, and be held by, operations of any model. -/
def LinkFacts.agree (child parent : LinkFacts) : Bool :=
  child.kind.isSynthetic || parent.kind.isSynthetic || child.model = parent.model

end BoundTree
