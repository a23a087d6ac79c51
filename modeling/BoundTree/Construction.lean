import BoundTree.Header
import BoundTree.Payload

/-!
What keeps an operation from being built. The header is checked first, then whether a shared shape
serves the claimed kind, then the rule of the shape.
-/
namespace BoundTree

/-- Why an attribute cannot have its value. -/
inductive Inconsistency
  | uncheckedUnary
  | uncheckedOperator
  | textNotCompared
  | truthOperatorUnused
  | tupleOperator
  | checkedUserDefined
  | contradiction (c : Conversion.Contradiction)
  | notRelational
  | patternOperator
  | notFunction
  deriving DecidableEq, Repr

def Inconsistency.reason : Inconsistency → String
  | .uncheckedUnary => "only negation can be overflow checked"
  | .uncheckedOperator => "operator cannot be overflow checked"
  | .textNotCompared => "text comparison applies to comparisons only"
  | .truthOperatorUnused => "only short-circuit operators use a true/false operator"
  | .tupleOperator => "tuples only compare for equality or inequality"
  | .checkedUserDefined => "user-defined operators are not overflow checked"
  | .contradiction c => c.reason
  | .notRelational => "relational tests need an equality or ordering operator"
  | .patternOperator => "patterns combine with and/or only"
  | .notFunction => "must wrap an anonymous function"

inductive ConstructionError
  /-- A shared shape does not serve the kind. -/
  | kindMismatch (shape : Shape) (kind : Kind)
  | missingAttribute (kind : Kind) (about : String)
  | inconsistentAttribute (kind : Kind) (about : String) (why : Inconsistency)
  /-- A statement has a result type or a constant. -/
  | statementWithValue (kind : Kind)
  /-- A flow node has a semantic model. -/
  | syntheticWithModel (kind : Kind)
  deriving DecidableEq, Repr

namespace ConstructionError

def name : ConstructionError → String
  | .kindMismatch .. => "KindMismatch"
  | .missingAttribute .. => "MissingAttribute"
  | .inconsistentAttribute .. => "InconsistentAttribute"
  | .statementWithValue _ => "StatementWithValue"
  | .syntheticWithModel _ => "SyntheticWithSemanticModel"

def message : ConstructionError → String
  | .kindMismatch s k => s.typeName ++ " cannot represent kind " ++ k.name
  | .missingAttribute k a => k.name ++ " requires " ++ a
  | .inconsistentAttribute k a w => k.name ++ " has inconsistent " ++ a ++ ": " ++ w.reason
  | .statementWithValue k =>
    "statement " ++ k.name ++ " cannot carry a result type or constant value"
  | .syntheticWithModel k => "synthetic " ++ k.name ++ " cannot reference a semantic model"

end ConstructionError

/-- What a header contradicts of the kind it is for. -/
def Header.error? (h : Header) (k : Kind) : Option ConstructionError :=
  if k.isStatement && (h.resultType.isSome || h.constant.isSome) then some (.statementWithValue k)
  else if k.isSynthetic && h.model.isSome then some (.syntheticWithModel k)
  else none

namespace Payload

/-- An error about an attribute, if it applies. -/
def blame (p : Payload) (about : String) (applies : Bool) (why : Inconsistency) :
    Option ConstructionError :=
  if applies then some (.inconsistentAttribute p.kind about why) else none

def require (p : Payload) (what : String) (present : Bool) : Option ConstructionError :=
  if present then none else some (.missingAttribute p.kind what)

/-- An operator that is there and fails a test. -/
def operatorFails (p : Payload) (about : String) (test : BinaryOperator → Bool) : Bool :=
  (p.binaryOperator? about).any fun o => !test o

def checkConversion (p : Payload) (about : String) : Option ConstructionError :=
  match (p.conversion? about).bind Conversion.contradiction? with
  | some c => some (.inconsistentAttribute p.kind about (.contradiction c))
  | none => none

/-- Only operators that can overflow may be checked for it. -/
def checkOverflow (p : Payload) : Option ConstructionError :=
  p.blame "is_checked"
    (p.flag "is_checked" && p.operatorFails "operator_kind" BinaryOperator.canBeChecked)
    .uncheckedOperator

/-- A test of order blames `operator_kind` whatever the attribute with the operator is called. -/
def checkRelation (p : Payload) (about : String) : Option ConstructionError :=
  p.blame "operator_kind" (p.operatorFails about BinaryOperator.isRelational) .notRelational

/-- The rule of the shape. -/
def ruleError? (p : Payload) (h : Header) : Option ConstructionError :=
  match p.shape with
  | .literal => p.require "constant value" h.constant.isSome
  | .fieldInitializer => p.require "initialized fields" (p.isPresent "initialized_fields")
  | .propertyInitializer =>
    p.require "initialized properties" (p.isPresent "initialized_properties")
  | .unary =>
    p.blame "is_checked"
      (p.flag "is_checked" && (p.unaryOperator? "operator_kind").any fun o => !o.canBeChecked)
      .uncheckedUnary
  | .binary =>
    p.checkOverflow
    <|> p.blame "is_compare_text"
      (p.flag "is_compare_text" && p.operatorFails "operator_kind" BinaryOperator.canCompareText)
      .textNotCompared
    <|> p.blame "unary_operator_method"
      (p.isPresent "unary_operator_method"
        && p.operatorFails "operator_kind" BinaryOperator.isConditional)
      .truthOperatorUnused
  | .tupleBinary =>
    p.blame "operator_kind" (p.operatorFails "operator_kind" fun o => o ∈ [.equals, .notEquals])
      .tupleOperator
  | .incrementOrDecrement =>
    p.blame "is_checked" (p.flag "is_checked" && p.isPresent "operator_method") .checkedUserDefined
  | .conversion => p.checkConversion "conversion"
  | .coalesce => p.checkConversion "value_conversion"
  | .compoundAssignment =>
    p.checkOverflow <|> p.checkConversion "in_conversion" <|> p.checkConversion "out_conversion"
  | .argument => p.checkConversion "in_conversion" <|> p.checkConversion "out_conversion"
  | .relationalPattern => p.checkRelation "operator_kind"
  | .relationalCaseClause => p.checkRelation "relation"
  | .binaryPattern =>
    p.blame "operator_kind" (p.operatorFails "operator_kind" fun o => o ∈ [.and, .or])
      .patternOperator
  | .flowAnonymousFunction =>
    p.blame "original" ((p.function? "original").any fun f => f.kind ≠ .anonymousFunction)
      .notFunction
  | _ => none

/-- A shape serves the kind that is claimed of it. -/
def kindError? (p : Payload) : Option ConstructionError :=
  if p.kind ∈ p.shape.kinds then none else some (.kindMismatch p.shape p.kind)

/-- The first thing that keeps an operation from being built. -/
def error? (p : Payload) (h : Header) : Option ConstructionError :=
  h.error? p.kind <|> p.kindError? <|> p.ruleError? h

end Payload
end BoundTree
