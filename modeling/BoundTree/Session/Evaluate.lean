import BoundTree.Number.Word
import BoundTree.Session.Folder

/-!
Folds to numbers: how many operations a tree has down to a depth, and the value of integer arithmetic.
-/
namespace BoundTree.Session

/-- Below the depth nothing counts, and nothing is read. References to dynamic members do not count. -/
def counting : Folder Int Int where
  method
    | .dynamicMemberReference => some fun _ _ _ _ => pure 0
    | _ => none
  fallback visit n _ depth :=
    if depth ≤ 0 then pure 0
    else do return (← foldChildren visit n (depth - 1)).foldl (· + ·) 1

/-- Nothing is visited below the depth, not even on a circle. -/
def census (n : NodeId) (depth : Int) : Procedure Int :=
  counting.acceptWithin (depth.toNat + 1) n depth

/-- The operators that are evaluated, as long as the result fits. -/
def combine? (o : BinaryOperator) (a b : Int) : Option Int :=
  match o with
  | .add => inWord? (a + b)
  | .subtract => inWord? (a - b)
  | .multiply => inWord? (a * b)
  | _ => none

def scaleLiteral : Handler Int (Option Int) := fun _ _ node scale =>
  pure ((node.header.constant.bind Constant.int?).bind fun n => inWord? (n * scale))

/-- Both operands are evaluated, whatever the operator is. -/
def evaluateBinary : Handler Int (Option Int) := fun visit n node scale => do
  match ← foldChildren visit n scale with
  | some a :: some b :: _ =>
    return (node.payload.binaryOperator? "operator_kind").bind (combine? · a b)
  | _ => return none

/-- Literals are scaled by the argument; an operation that is no arithmetic has the value of its first
child. -/
def evaluating : Folder Int (Option Int) where
  method
    | .literal => some scaleLiteral
    | .binary => some evaluateBinary
    | _ => none
  fallback visit n _ scale := do
    match ← children n (some 1) with
    | child :: _ => visit child scale
    | [] => return none

def evaluate? (n : NodeId) (scale : Int) : Procedure (Option Int) := evaluating.accept n scale

end BoundTree.Session
