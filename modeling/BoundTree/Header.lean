import BoundTree.Constant
import BoundTree.Source

/-!
The facts that every operation carries, whatever its kind.
-/
namespace BoundTree

structure Header where
  locus : Locus
  /-- The type of the value; statements have none. -/
  resultType : Option TypeId := none
  constant : Option Constant := none
  /-- Supplied by the compiler and not written by the user. -/
  isImplicit : Bool := false
  /-- The semantic model that bound the operation; flow nodes have none. -/
  model : Option ModelId := none
  deriving DecidableEq, Repr

namespace Header

/-- Equality with constants compared as values. -/
def valueEq (a b : Header) : Bool :=
  let sameConstant := match a.constant, b.constant with
    | some x, some y => x.valueEq y
    | none, none => true
    | _, _ => false
  a.locus == b.locus && a.resultType == b.resultType && sameConstant
    && a.isImplicit == b.isImplicit && a.model == b.model

def debugFields (h : Header) : List (String × String) :=
  [("locus", h.locus.debug), ("result_type", Text.optional (h.resultType.map Handle.debug)),
    ("constant_value", Text.optional (h.constant.map Constant.debug)),
    ("is_implicit", Text.truth h.isImplicit)]

def debug (h : Header) : String :=
  Text.record "OperationHeader"
    (h.debugFields ++ [("semantic_model", Text.optional (h.model.map Handle.debug))])

end Header
end BoundTree
