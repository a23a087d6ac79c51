import BoundTree.Proofs.Store
import BoundTree.Session.Dump

/-!
What a specification describes: operations with all that is to be in their slots, whether it is built
at once or when a slot is first read. Main statement: filling at once what producers would make changes
nothing of what is described.
-/
namespace BoundTree

/-! Specifications without producers. -/

mutual

def NodeExpr.forced : NodeExpr → NodeExpr
  | .named id => .named id
  | .build spec => .build spec.forced
  | .malformed => .malformed

/-- The specification with every slot filled at once that a producer would fill. -/
def NodeSpec.forced : NodeSpec → NodeSpec
  | .mk id header shape tag slots attributes =>
    .mk id header shape tag (slotsForced slots) (attributesForced attributes)

def SlotExpr.forced : SlotExpr → SlotExpr
  | .filled values => .filled (nodesForced values)
  | .moved name => .moved name
  | .deferred producer => .filled producer.forced
  | .malformed => .malformed

/-- The value of the first run. -/
def Producer.forced : Producer → List NodeExpr
  | .mk _ _ first _ => nodesForced first

def AttributeExpr.forced : AttributeExpr → AttributeExpr
  | .value v => .value v
  | .symbol name => .symbol name
  | .optionalSymbols names => .optionalSymbols names
  | .function e => .function e.forced
  | .malformed => .malformed

def nodesForced : List NodeExpr → List NodeExpr
  | [] => []
  | e :: es => e.forced :: nodesForced es

def slotsForced : List SlotExpr → List SlotExpr
  | [] => []
  | e :: es => e.forced :: slotsForced es

def attributesForced : List AttributeExpr → List AttributeExpr
  | [] => []
  | e :: es => e.forced :: attributesForced es

end

/-! Specifications that refer to nothing outside. -/

mutual

def NodeExpr.isClosed : NodeExpr → Bool
  | .named _ => false
  | .build spec => spec.isClosed
  | .malformed => false

/-- No named operation and no named slot is referred to, and no producer reads what is there. -/
def NodeSpec.isClosed : NodeSpec → Bool
  | .mk _ _ _ _ slots attributes => slotsClosed slots && attributesClosed attributes

def SlotExpr.isClosed : SlotExpr → Bool
  | .filled values => nodesClosed values
  | .moved _ => false
  | .deferred producer => producer.isClosed
  | .malformed => false

/-- Later values do not matter, for the first run is the only one. -/
def Producer.isClosed : Producer → Bool
  | .mk _ reenter first _ => reenter.isNone && nodesClosed first

def AttributeExpr.isClosed : AttributeExpr → Bool
  | .value v => v.node?.isNone
  | .symbol _ => true
  | .optionalSymbols names => names.all (· ≠ .malformed)
  | .function e => e.isClosed
  | .malformed => false

def nodesClosed : List NodeExpr → Bool
  | [] => true
  | e :: es => e.isClosed && nodesClosed es

def slotsClosed : List SlotExpr → Bool
  | [] => true
  | e :: es => e.isClosed && slotsClosed es

def attributesClosed : List AttributeExpr → Bool
  | [] => true
  | e :: es => e.isClosed && attributesClosed es

end

/-! Descriptions. -/

mutual

/-- An attribute as it is described: a name has no number yet, and a function is no operation yet. -/
inductive Trait
  | plain (v : AttributeValue)
  | symbol (name : String)
  | optionalSymbols (names : List (Option String))
  | function (d : Description)

/-- An operation as it is described, with what is to be in its slots, in declaration order. -/
inductive Description
  | mk (header : Header) (shape : Shape) (tag : Option Kind) (traits : List Trait)
      (slots : List (List Description))

end

def NameExpr.name? : NameExpr → Option String
  | .name s => some s
  | _ => none

mutual

/-- Nothing is known of an operation that is only named. -/
def NodeExpr.described : NodeExpr → List Description
  | .named _ => []
  | .build spec => [spec.description]
  | .malformed => []

def NodeSpec.description : NodeSpec → Description
  | .mk _ header shape tag slots attributes =>
    .mk header shape tag (attributesTraits attributes)
      ((slotsDescribed slots).take shape.slots.length)

def SlotExpr.described : SlotExpr → List Description
  | .filled values => nodesDescribed values
  | .moved _ => []
  | .deferred producer => producer.described
  | .malformed => []

def Producer.described : Producer → List Description
  | .mk _ _ first _ => nodesDescribed first

def AttributeExpr.traits : AttributeExpr → List Trait
  | .value v => [.plain v]
  | .symbol name => [.symbol name]
  | .optionalSymbols names => [.optionalSymbols (names.map NameExpr.name?)]
  | .function e => e.described.map .function
  | .malformed => []

def nodesDescribed : List NodeExpr → List Description
  | [] => []
  | e :: es => e.described ++ nodesDescribed es

def slotsDescribed : List SlotExpr → List (List Description)
  | [] => []
  | e :: es => e.described :: slotsDescribed es

def attributesTraits : List AttributeExpr → List Trait
  | [] => []
  | e :: es => e.traits ++ attributesTraits es

end

mutual

theorem NodeExpr.described_forced : ∀ e : NodeExpr, e.forced.described = e.described
  | .named _ => rfl
  | .build spec => by
    rw [NodeExpr.forced, NodeExpr.described, NodeExpr.described, spec.description_forced]
  | .malformed => rfl

/-- What is described is the same. -/
theorem NodeSpec.description_forced : ∀ spec : NodeSpec, spec.forced.description = spec.description
  | .mk _ _ _ _ slots attributes => by
    rw [NodeSpec.forced, NodeSpec.description, NodeSpec.description, slotsDescribed_forced slots,
      attributesTraits_forced attributes]

theorem SlotExpr.described_forced : ∀ e : SlotExpr, e.forced.described = e.described
  | .filled values => by
    rw [SlotExpr.forced, SlotExpr.described, SlotExpr.described, nodesDescribed_forced values]
  | .moved _ => rfl
  | .deferred producer => by
    rw [SlotExpr.forced, SlotExpr.described, SlotExpr.described, producer.nodesDescribed_forced]
  | .malformed => rfl

theorem Producer.nodesDescribed_forced : ∀ p : Producer, nodesDescribed p.forced = p.described
  | .mk _ _ first _ => by
    rw [Producer.forced, Producer.described]
    exact BoundTree.nodesDescribed_forced first

theorem AttributeExpr.traits_forced : ∀ e : AttributeExpr, e.forced.traits = e.traits
  | .value _ => rfl
  | .symbol _ => rfl
  | .optionalSymbols _ => rfl
  | .function e => by
    rw [AttributeExpr.forced, AttributeExpr.traits, AttributeExpr.traits, e.described_forced]
  | .malformed => rfl

theorem nodesDescribed_forced : ∀ es, nodesDescribed (nodesForced es) = nodesDescribed es
  | [] => rfl
  | e :: es => by
    rw [nodesForced, nodesDescribed, nodesDescribed, e.described_forced, nodesDescribed_forced es]

theorem slotsDescribed_forced : ∀ es, slotsDescribed (slotsForced es) = slotsDescribed es
  | [] => rfl
  | e :: es => by
    rw [slotsForced, slotsDescribed, slotsDescribed, e.described_forced, slotsDescribed_forced es]

theorem attributesTraits_forced : ∀ es, attributesTraits (attributesForced es) = attributesTraits es
  | [] => rfl
  | e :: es => by
    rw [attributesForced, attributesTraits, attributesTraits, e.traits_forced,
      attributesTraits_forced es]

end

mutual

theorem NodeExpr.isClosed_forced : ∀ e : NodeExpr, e.isClosed → e.forced.isClosed
  | .named _, h => h
  | .build spec, h => spec.isClosed_forced h
  | .malformed, h => h

theorem NodeSpec.isClosed_forced : ∀ spec : NodeSpec, spec.isClosed → spec.forced.isClosed
  | .mk _ _ _ _ slots attributes, h => by
    rw [NodeSpec.isClosed, Bool.and_eq_true] at h
    rw [NodeSpec.forced, NodeSpec.isClosed, Bool.and_eq_true]
    exact ⟨slotsClosed_forced slots h.1, attributesClosed_forced attributes h.2⟩

theorem SlotExpr.isClosed_forced : ∀ e : SlotExpr, e.isClosed → e.forced.isClosed
  | .filled values, h => nodesClosed_forced values h
  | .moved _, h => h
  | .deferred producer, h => producer.nodesClosed_forced h
  | .malformed, h => h

theorem Producer.nodesClosed_forced : ∀ p : Producer, p.isClosed → nodesClosed p.forced
  | .mk _ _ first _, h => by
    rw [Producer.isClosed, Bool.and_eq_true] at h
    exact BoundTree.nodesClosed_forced first h.2

theorem AttributeExpr.isClosed_forced : ∀ e : AttributeExpr, e.isClosed → e.forced.isClosed
  | .value _, h => h
  | .symbol _, h => h
  | .optionalSymbols _, h => h
  | .function e, h => e.isClosed_forced h
  | .malformed, h => h

theorem nodesClosed_forced : ∀ es, nodesClosed es → nodesClosed (nodesForced es)
  | [], h => h
  | e :: es, h => by
    rw [nodesClosed, Bool.and_eq_true] at h
    rw [nodesForced, nodesClosed, Bool.and_eq_true]
    exact ⟨e.isClosed_forced h.1, nodesClosed_forced es h.2⟩

theorem slotsClosed_forced : ∀ es, slotsClosed es → slotsClosed (slotsForced es)
  | [], h => h
  | e :: es, h => by
    rw [slotsClosed, Bool.and_eq_true] at h
    rw [slotsForced, slotsClosed, Bool.and_eq_true]
    exact ⟨e.isClosed_forced h.1, slotsClosed_forced es h.2⟩

theorem attributesClosed_forced : ∀ es, attributesClosed es → attributesClosed (attributesForced es)
  | [], h => h
  | e :: es, h => by
    rw [attributesClosed, Bool.and_eq_true] at h
    rw [attributesForced, attributesClosed, Bool.and_eq_true]
    exact ⟨e.isClosed_forced h.1, attributesClosed_forced es h.2⟩

end

end BoundTree
