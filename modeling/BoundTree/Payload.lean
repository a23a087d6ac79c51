import BoundTree.Attribute.Value
import BoundTree.Shape.Basic

/-!
What is particular to one operation: its shape, its kind if the shape serves several, and the values
of the plain attributes of the shape. The order in which its slots are evaluated is theirs in the
shape, except that a loop tested at the bottom runs its body before its condition.
-/
namespace BoundTree

/-- The kind of an operation. The claimed kind counts only where the shape serves several. -/
def Shape.kindOf (s : Shape) (tag : Option Kind) : Kind :=
  match s.kinds, tag with
  | [k], _ => k
  | _, some k => k
  | k :: _, none => k
  | [], none => .unmodelled

structure Payload where
  shape : Shape
  /-- The kind that an operation of a shared shape claims. -/
  tag : Option Kind
  /-- In declaration order. -/
  attributes : List (String × AttributeValue)
  typed : attributes.map (fun a => (a.1, a.2.type)) = shape.attributes
  deriving DecidableEq, Repr

namespace Payload

/-- Values in declaration order, which must have the types that the shape asks for. -/
def make? (shape : Shape) (tag : Option Kind) (values : List AttributeValue) : Option Payload :=
  let attributes := (shape.attributes.map (·.1)).zip values
  if h : attributes.map (fun a => (a.1, a.2.type)) = shape.attributes then
    some ⟨shape, tag, attributes, h⟩
  else none

theorem make?_eq_some {shape : Shape} {tag : Option Kind} {values : List AttributeValue} {p : Payload}
    (h : make? shape tag values = some p) : p.shape = shape ∧ p.tag = tag ∧
      p.attributes = (shape.attributes.map (·.1)).zip values := by
  unfold make? at h
  dsimp only at h
  split at h
  · cases h
    exact ⟨rfl, rfl, rfl⟩
  · cases h

def kind (p : Payload) : Kind := p.shape.kindOf p.tag

def attribute? (p : Payload) (name : String) : Option AttributeValue :=
  (p.attributes.find? (·.1 == name)).map (·.2)

def flag (p : Payload) (name : String) : Bool :=
  match p.attribute? name with
  | some (.flag b) => b
  | _ => false

def unaryOperator? (p : Payload) (name : String) : Option UnaryOperator :=
  match p.attribute? name with
  | some (.unaryOperator o) => some o
  | _ => none

def binaryOperator? (p : Payload) (name : String) : Option BinaryOperator :=
  match p.attribute? name with
  | some (.binaryOperator o) => some o
  | _ => none

def conversion? (p : Payload) (name : String) : Option Conversion :=
  match p.attribute? name with
  | some (.conversion c) => some c
  | _ => none

def function? (p : Payload) (name : String) : Option FunctionRef :=
  match p.attribute? name with
  | some (.function f) => some f
  | _ => none

/-- Whether an attribute that may be absent, or may list nothing, has something. -/
def isPresent (p : Payload) (name : String) : Bool :=
  match p.attribute? name with
  | some (.optionalHandle _ h) => h.isSome
  | some (.handles _ hs) => !hs.isEmpty
  | some _ => true
  | none => false

/-- The places of the child slots among the slots of the shape, in declaration order. -/
def childPlaces (p : Payload) : List Nat :=
  (List.range p.shape.slots.length).filter fun i =>
    (p.shape.slots[i]?.map (·.linkage)) = some .attached

/-- The places of the child slots in evaluation order. -/
def evaluationOrder (p : Payload) : List Nat :=
  if p.shape = .whileLoop ∧ ¬p.flag "condition_is_top" then [1, 0, 2] else p.childPlaces

/-- The structural form, given that of each slot. -/
def debug (p : Payload) (slots : List String) : String :=
  let tag := if p.shape.isShared then [("kind", p.kind.name)] else []
  let slots := (p.shape.slots.map (·.name)).zip slots
  let attributes := p.attributes.map fun a => (a.1, a.2.debug)
  Text.applied p.shape.name (Text.record p.shape.typeName (tag ++ slots ++ attributes))

/-- The operations that the attributes keep alive. -/
def nodes (p : Payload) : List NodeId := p.attributes.filterMap (·.2.node?)

end Payload
end BoundTree
