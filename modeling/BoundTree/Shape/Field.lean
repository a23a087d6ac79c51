import BoundTree.Handle
import BoundTree.Kind.Basic

/-!
The fields of shapes: slots that hold operations, and plain attributes with their types.
-/
namespace BoundTree

/-- How many operations a slot holds. -/
inductive Arity
  | one
  | optional
  | many
  deriving DecidableEq, Repr

namespace Arity

/-- The name of the slot type. -/
def typeName : Arity → String
  | .one => "Child"
  | .optional => "OptionalChild"
  | .many => "ChildList"

def all : List Arity := [.one, .optional, .many]

instance : Named Arity := ⟨all, typeName⟩

/-- Whether a slot may hold a number of operations. -/
def admits : Arity → Nat → Bool
  | .one, n => n == 1
  | .optional, n => n ≤ 1
  | .many, _ => true

end Arity

/-- What the values of a slot are to the operation that holds it. -/
inductive Linkage
  /-- Children: they are linked to the holder and found by walks. -/
  | attached
  /-- Operations that have their place elsewhere. -/
  | detached
  deriving DecidableEq, Repr

def Linkage.name : Linkage → String
  | .attached => "attached"
  | .detached => "detached"

structure SlotField where
  name : String
  arity : Arity
  linkage : Linkage
  deriving DecidableEq, Repr

namespace SlotField

def one (name : String) : SlotField := ⟨name, .one, .attached⟩

def optional (name : String) : SlotField := ⟨name, .optional, .attached⟩

def many (name : String) : SlotField := ⟨name, .many, .attached⟩

def detached (arity : Arity) (name : String) : SlotField := ⟨name, arity, .detached⟩

end SlotField

inductive AttributeType
  | flag
  | handle (c : Category)
  | optionalHandle (c : Category)
  | handles (c : Category)
  | text
  | symbol
  | optionalSymbols
  | unaryOperator
  | binaryOperator
  | branchKind
  | argumentKind
  | refKinds
  | instanceReferenceKind
  | placeholderKind
  | handlerPlaceholder
  | conversion
  | forEachInfo
  /-- The function that a flow node stands for; it is no child. -/
  | function
  deriving DecidableEq, Repr

end BoundTree
