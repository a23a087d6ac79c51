import BoundTree.Named

/-!
Operators, and the groups of them that construction asks about.
-/
namespace BoundTree

/-- Operators on one operand. -/
inductive UnaryOperator
  | bitwiseNegation
  | not
  | plus
  | minus
  /-- User-defined `true` operator. -/
  | trueTest
  /-- User-defined `false` operator. -/
  | falseTest
  /-- Index from the end. -/
  | hat
  deriving DecidableEq, Repr

namespace UnaryOperator

def name : UnaryOperator → String
  | .bitwiseNegation => "BitwiseNegation"
  | .not => "Not"
  | .plus => "Plus"
  | .minus => "Minus"
  | .trueTest => "True"
  | .falseTest => "False"
  | .hat => "Hat"

def all : List UnaryOperator :=
  [.bitwiseNegation, .not, .plus, .minus, .trueTest, .falseTest, .hat]

instance : Named UnaryOperator := ⟨all, name⟩

theorem mem_all (x : UnaryOperator) : x ∈ all := by cases x <;> decide

/-- Only negation can overflow. -/
def canBeChecked (o : UnaryOperator) : Bool := o = .minus

end UnaryOperator

/-- Operators on two operands. -/
inductive BinaryOperator
  | add
  | subtract
  | multiply
  | divide
  | integerDivide
  | remainder
  | power
  | leftShift
  | rightShift
  | unsignedRightShift
  | and
  | or
  | exclusiveOr
  | conditionalAnd
  | conditionalOr
  | concatenate
  | equals
  | objectValueEquals
  | notEquals
  | objectValueNotEquals
  | lessThan
  | lessThanOrEqual
  | greaterThanOrEqual
  | greaterThan
  | like
  deriving DecidableEq, Repr

namespace BinaryOperator

def name : BinaryOperator → String
  | .add => "Add"
  | .subtract => "Subtract"
  | .multiply => "Multiply"
  | .divide => "Divide"
  | .integerDivide => "IntegerDivide"
  | .remainder => "Remainder"
  | .power => "Power"
  | .leftShift => "LeftShift"
  | .rightShift => "RightShift"
  | .unsignedRightShift => "UnsignedRightShift"
  | .and => "And"
  | .or => "Or"
  | .exclusiveOr => "ExclusiveOr"
  | .conditionalAnd => "ConditionalAnd"
  | .conditionalOr => "ConditionalOr"
  | .concatenate => "Concatenate"
  | .equals => "Equals"
  | .objectValueEquals => "ObjectValueEquals"
  | .notEquals => "NotEquals"
  | .objectValueNotEquals => "ObjectValueNotEquals"
  | .lessThan => "LessThan"
  | .lessThanOrEqual => "LessThanOrEqual"
  | .greaterThanOrEqual => "GreaterThanOrEqual"
  | .greaterThan => "GreaterThan"
  | .like => "Like"

def all : List BinaryOperator :=
  [.add, .subtract, .multiply, .divide, .integerDivide, .remainder, .power, .leftShift, .rightShift,
    .unsignedRightShift, .and, .or, .exclusiveOr, .conditionalAnd, .conditionalOr, .concatenate,
    .equals, .objectValueEquals, .notEquals, .objectValueNotEquals, .lessThan, .lessThanOrEqual,
    .greaterThanOrEqual, .greaterThan, .like]

instance : Named BinaryOperator := ⟨all, name⟩

theorem mem_all (x : BinaryOperator) : x ∈ all := by cases x <;> decide

/-- Equality, inequality and order, also on the values of objects. -/
def isComparison (o : BinaryOperator) : Bool :=
  o ∈ [equals, objectValueEquals, notEquals, objectValueNotEquals, lessThan, lessThanOrEqual,
    greaterThanOrEqual, greaterThan]

/-- The comparisons that patterns and case clauses may make. -/
def isRelational (o : BinaryOperator) : Bool :=
  o ∈ [equals, notEquals, lessThan, lessThanOrEqual, greaterThanOrEqual, greaterThan]

/-- Operators that may skip their second operand. -/
def isConditional (o : BinaryOperator) : Bool := o ∈ [conditionalAnd, conditionalOr]

/-- Operators that can overflow. -/
def canBeChecked (o : BinaryOperator) : Bool :=
  o ∈ [add, subtract, multiply, divide, integerDivide, power]

/-- Operators that may compare strings as text. -/
def canCompareText (o : BinaryOperator) : Bool := o.isComparison || o = .like

end BinaryOperator

end BoundTree
