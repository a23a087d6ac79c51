import BoundTree.Attribute.Value
import BoundTree.Header
import BoundTree.Shape.Basic

/-!
Expressions for operations: named ones and specifications of new ones, with slots that are filled at
once or by a producer on first read. What could not be read stands in its place as `malformed` and
fails when it is reached, after everything in front of it has been built.
-/
namespace BoundTree

/-- A name to be interned, where there may be none. -/
inductive NameExpr
  | absent
  | name (s : String)
  | malformed
  deriving DecidableEq, Repr

mutual

inductive NodeExpr
  /-- The operation bound to a name. -/
  | named (id : String)
  | build (spec : NodeSpec)
  | malformed

inductive NodeSpec
  | mk (id : Option String) (header : Header) (shape : Shape) (tag : Option Kind)
      (slots : List SlotExpr) (attributes : List AttributeExpr)

inductive SlotExpr
  | filled (values : List NodeExpr)
  /-- The slot bound to a name, which loses the name. -/
  | moved (name : String)
  | deferred (producer : Producer)
  | malformed

/-- The values of the first run, the second, and so on; the last one serves all later runs. -/
inductive Producer
  | mk (counter : Option String) (reenter : Option String) (first : List NodeExpr)
      (later : List (List NodeExpr))

inductive AttributeExpr
  | value (v : AttributeValue)
  /-- A name to be interned. -/
  | symbol (name : String)
  | optionalSymbols (names : List NameExpr)
  | function (e : NodeExpr)
  | malformed

end

namespace NodeSpec

def id : NodeSpec → Option String
  | .mk id .. => id

def header : NodeSpec → Header
  | .mk _ header .. => header

def shape : NodeSpec → Shape
  | .mk _ _ shape .. => shape

def tag : NodeSpec → Option Kind
  | .mk _ _ _ tag .. => tag

end NodeSpec

namespace Producer

def counter : Producer → Option String
  | .mk counter .. => counter

/-- The operation whose children the first run enumerates. -/
def reenter : Producer → Option String
  | .mk _ reenter .. => reenter

def values : Producer → List (List NodeExpr)
  | .mk _ _ first later => first :: later

/-- The expressions of a run, counted from one. -/
def valueOf (p : Producer) (run : Nat) : List NodeExpr :=
  match p with
  | .mk _ _ first later => (first :: later)[min run (later.length + 1) - 1]?.getD first

theorem valueOf_mem (p : Producer) (run : Nat) : p.valueOf run ∈ p.values := by
  obtain ⟨counter, reenter, first, later⟩ := p
  simp only [valueOf, values]
  cases h : (first :: later)[min run (later.length + 1) - 1]? with
  | none => exact List.mem_cons_self
  | some es => exact List.mem_of_getElem? h

end Producer

/-!
How many operations and slots a store may gain from an expression once every producer in it has run
twice: a second run starts only within the first.
-/

mutual

def NodeExpr.weight : NodeExpr → Nat
  | .named _ => 0
  | .build spec => spec.weight
  | .malformed => 0

def NodeSpec.weight : NodeSpec → Nat
  | .mk _ _ _ _ slots attributes => 1 + slotsWeight slots + attributesWeight attributes

def SlotExpr.weight : SlotExpr → Nat
  | .filled values => 1 + nodesWeight values
  | .moved _ => 0
  | .deferred producer => 1 + 2 * producer.weight
  | .malformed => 0

def Producer.weight : Producer → Nat
  | .mk _ _ first later => 1 + nodesWeight first + listsWeight later

def AttributeExpr.weight : AttributeExpr → Nat
  | .value _ => 0
  | .symbol _ => 0
  | .optionalSymbols _ => 0
  | .function e => e.weight
  | .malformed => 0

/-- A value takes a place of its own, whether or not it is new. -/
def nodesWeight : List NodeExpr → Nat
  | [] => 0
  | e :: es => 1 + e.weight + nodesWeight es

def listsWeight : List (List NodeExpr) → Nat
  | [] => 0
  | es :: rest => nodesWeight es + listsWeight rest

def slotsWeight : List SlotExpr → Nat
  | [] => 0
  | e :: es => e.weight + slotsWeight es

def attributesWeight : List AttributeExpr → Nat
  | [] => 0
  | e :: es => e.weight + attributesWeight es

end

end BoundTree
