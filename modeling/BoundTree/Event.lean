import BoundTree.Construction
import BoundTree.Link
import BoundTree.Store.Basic

/-!
What the library reports while it works.
-/
namespace BoundTree

/-- What a check of links follows. -/
inductive LinkCheck
  | construction
  | publication (cell : CellId)
  deriving DecidableEq, Repr

inductive Event
  /-- The value of this run, the first of a deferred slot, is in place. -/
  | published (cell : CellId) (run : Nat) (owner : Option Kind) (count : Nat)
  /-- The value of this run came after another one had been published, and is dropped. -/
  | discarded (cell : CellId) (run : Nat) (owner : Option Kind)
  | rejected (kind : Kind) (error : ConstructionError)
  | linkViolated (check : LinkCheck) (violation : LinkViolation)
  | verificationFailed (count : Nat) (root : Kind)
  deriving DecidableEq, Repr

/-- A line with the level of the event, its message and its facts. -/
def Event.text : Event → String
  | .published _ _ owner count =>
    "TRACE published lazy slot owner=" ++ Text.optional (owner.map Kind.name)
      ++ " children=" ++ toString count
  | .discarded _ _ owner =>
    "TRACE discarded lazy slot result that lost the publish race owner="
      ++ Text.optional (owner.map Kind.name)
  | .rejected kind error =>
    "DEBUG rejected operation kind=" ++ kind.name ++ " error=" ++ error.message
  | .linkViolated _ violation =>
    "ERROR parent-link invariant violated violation=" ++ violation.message
  | .verificationFailed count root =>
    "WARN operation tree failed verification count=" ++ toString count ++ " root=" ++ root.name

end BoundTree
