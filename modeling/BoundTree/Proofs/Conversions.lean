import BoundTree.Proofs.Kinds
import BoundTree.Proofs.Parents

/-!
The conversions that operations store. Every shape with a conversion has a rule of its own, and the rules
of two shapes leave the check out. Main statement: whatever has been done, an operation stores no
conversion that contradicts itself, unless it is a spread or a loop over a collection.
-/
namespace BoundTree

/-- The conversions that a value describes. -/
def AttributeValue.conversions : AttributeValue → List Conversion
  | .conversion c => [c]
  | .forEachInfo (some i) => [i.currentConversion, i.elementConversion]
  | _ => []

namespace Shape

/-- The attributes with a conversion that the rule of the shape looks at. -/
def checkedConversions : Shape → List String
  | .conversion => ["conversion"]
  | .coalesce => ["value_conversion"]
  | .compoundAssignment | .argument => ["in_conversion", "out_conversion"]
  | _ => []

/-- No two attributes have the same name. -/
theorem nodup_attributes (s : Shape) : (s.attributes.map (·.1)).Nodup := by
  have htable : ∀ s ∈ all, (s.attributes.map (·.1)).Nodup := by decide +kernel
  exact htable s s.mem_all

/-- Of all attributes with conversions, those of spreads and of loops over collections are the only ones
that no rule looks at. -/
theorem mem_checkedConversions {s : Shape} (hspread : s ≠ .spread) (hloop : s ≠ .forEachLoop)
    {a : String × AttributeType} (h : a ∈ s.attributes) :
    a.2 ≠ .forEachInfo ∧ (a.2 = .conversion → a.1 ∈ s.checkedConversions) := by
  have htable : ∀ s ∈ all, s ≠ .spread → s ≠ .forEachLoop → ∀ a ∈ s.attributes,
      a.2 ≠ .forEachInfo ∧ (a.2 = .conversion → a.1 ∈ s.checkedConversions) := by decide +kernel
  exact htable s s.mem_all hspread hloop a h

end Shape

namespace Payload

variable {p : Payload}

/-- The conversions that the attributes describe, in declaration order. -/
def conversions (p : Payload) : List Conversion := p.attributes.flatMap (·.2.conversions)

/-- An attribute is found by its name. -/
theorem attribute?_of_mem {a : String × AttributeValue} (h : a ∈ p.attributes) :
    p.attribute? a.1 = some a.2 := by
  have hnames : (p.attributes.map (·.1)).Nodup := by
    have hshape := p.shape.nodup_attributes
    rw [← p.typed, List.map_map] at hshape
    exact hshape
  obtain ⟨b, hb⟩ : ∃ b, p.attributes.find? (·.1 == a.1) = some b :=
    Option.isSome_iff_exists.mp (List.find?_isSome.mpr ⟨a, h, beq_self_eq_true a.1⟩)
  have hname : b.1 = a.1 := by simpa using List.find?_some hb
  have hba : b = a := List.inj_on_of_nodup_map hnames (List.mem_of_find?_eq_some hb) h hname
  rw [attribute?, hb, hba]
  rfl

theorem checkConversion_eq_none {about : String} : p.checkConversion about = none ↔
    ∀ c, p.conversion? about = some c → c.contradiction? = none := by
  unfold checkConversion
  cases p.conversion? about with
  | none => simp
  | some c => cases hc : c.contradiction? <;> simp [hc]

/-- What passes the rule of its shape passes the checks of conversions that the rule makes. -/
theorem checkConversion_of_ruleError? {h : Header} (hrule : p.ruleError? h = none) {about : String}
    (habout : about ∈ p.shape.checkedConversions) : p.checkConversion about = none := by
  unfold Shape.checkedConversions at habout
  split at habout <;> rename_i hshape <;>
    simp only [ruleError?, hshape, Option.orElse_eq_orElse, Option.orElse_eq_or, Option.or_eq_none_iff,
      List.mem_cons, List.not_mem_nil, or_false] at hrule habout
  · exact habout ▸ hrule
  · exact habout ▸ hrule
  · rcases habout with rfl | rfl
    · exact hrule.2.1
    · exact hrule.2.2
  · rcases habout with rfl | rfl
    · exact hrule.1
    · exact hrule.2

/-- What passes the rule of a shape that looks at all conversions describes none that contradicts
itself. -/
theorem conversions_of_ruleError? {h : Header} (hrule : p.ruleError? h = none)
    (hspread : p.shape ≠ .spread) (hloop : p.shape ≠ .forEachLoop) :
    ∀ c ∈ p.conversions, c.contradiction? = none := by
  intro c hc
  obtain ⟨a, ha, hc⟩ := List.mem_flatMap.mp hc
  have htyped : (a.1, a.2.type) ∈ p.shape.attributes :=
    p.typed ▸ List.mem_map_of_mem (f := fun a => (a.1, a.2.type)) ha
  obtain ⟨hinfo, hchecked⟩ := Shape.mem_checkedConversions hspread hloop htyped
  obtain ⟨name, v⟩ := a
  cases v with
  | conversion d =>
    obtain rfl : c = d := List.mem_singleton.mp hc
    have hstored : p.conversion? name = some c := by rw [conversion?, attribute?_of_mem ha]
    exact checkConversion_eq_none.mp (checkConversion_of_ruleError? hrule (hchecked rfl)) c hstored
  | forEachInfo i => exact absurd rfl hinfo
  | _ => cases hc

end Payload

namespace Session

open Procedure

/-- Whether links are checked or not, and whatever the steps came to: an operation that was ever built
stores no conversion that contradicts itself, unless it is a spread or a loop over a collection. -/
theorem conversions_consistent {verifies : Bool} {s : Session} (hs : Reached verifies s) {n : NodeId}
    {node : Node} (hn : s.store.node? n = some node) (hspread : node.shape ≠ .spread)
    (hloop : node.shape ≠ .forEachLoop) : ∀ c ∈ node.payload.conversions, c.contradiction? = none := by
  obtain ⟨-, -, hrule⟩ := Payload.error?_eq_none.mp (hs.checked n node hn)
  exact Payload.conversions_of_ruleError? hrule hspread hloop

/-- An argument that is given as it is, and not given back. -/
def plainArgument : List Step :=
  [.build (emptyStatement (some "x")), .build (statement (some "a") .argument [.filled [.named "x"]]
    [.value (.argumentKind .explicit), .value (.optionalHandle .parameter none),
      .value (.conversion .identity), .value (.conversion .missing)])]

theorem conversions_consistent_plainArgument : ∃ node,
    ((start true).after plainArgument).store.node? 1 = some node ∧ node.shape = .argument ∧
      node.payload.conversions = [.identity, .missing] ∧
      ∀ c ∈ node.payload.conversions, c.contradiction? = none := by
  obtain ⟨node, hnode⟩ : ∃ node, ((start true).after plainArgument).store.node? 1 = some node :=
    Option.isSome_iff_exists.mp (by decide)
  have hmap : (((start true).after plainArgument).store.node? 1).map
      (fun node => (node.shape, node.payload.conversions)) =
        some (.argument, [.identity, .missing]) := by decide
  rw [hnode, Option.map_some, Option.some_inj, Prod.mk.injEq] at hmap
  refine ⟨node, hnode, hmap.1, hmap.2, ?_⟩
  exact conversions_consistent (Reached.start.after plainArgument) hnode (by rw [hmap.1]; decide)
    (by rw [hmap.1]; decide)

/-- A conversion that does not exist, and changes nothing. -/
def missingIdentity : Conversion := { Conversion.missing with isIdentity := true }

/-- A spread, and a loop over a collection, with conversions that contradict themselves. -/
def contradictory : List Step :=
  [.build (statement (some "s") .spread [.filled [emptyStatement none]]
      [.value (.handle .type ⟨0⟩), .value (.conversion missingIdentity)]),
    .build (statement (some "l") .forEachLoop
      [.filled [emptyStatement none], .filled [emptyStatement none], .filled [emptyStatement none],
        .filled []]
      [.value (.flag false),
        .value (.forEachInfo (some ⟨⟨0⟩, ⟨0⟩, ⟨0⟩, ⟨0⟩, none, missingIdentity, missingIdentity, false⟩)),
        .value (.handles .localVar []), .value (.handle .label ⟨0⟩), .value (.handle .label ⟨0⟩)])]

/-- Spreads and loops over collections store such conversions, and no step fails. -/
theorem conversions_not_consistent :
    ((start true).run contradictory).all (·.answer.isOk) ∧
      ((start true).after contradictory).isAlive 1 = true ∧
      (((start true).after contradictory).store.node? 1).map
        (fun node => (node.shape, node.payload.conversions)) = some (.spread, [missingIdentity]) ∧
      ((start true).after contradictory).isAlive 5 = true ∧
      (((start true).after contradictory).store.node? 5).map
        (fun node => (node.shape, node.payload.conversions)) =
          some (.forEachLoop, [missingIdentity, missingIdentity]) ∧
      missingIdentity.contradiction? = some .missingYetPerformed := by
  have hspread : ((start true).after contradictory).node? "s" = some 1 := by decide +kernel
  have hloop : ((start true).after contradictory).node? "l" = some 5 := by decide +kernel
  exact ⟨by decide +kernel, isAlive_of_node? hspread (by decide +kernel), by decide +kernel,
    isAlive_of_node? hloop (by decide +kernel), by decide +kernel, rfl⟩

end Session
end BoundTree
