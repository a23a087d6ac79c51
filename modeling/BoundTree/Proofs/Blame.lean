import BoundTree.Proofs.Conversions

/-!
What a rejection blames. For every attribute that the rule of a shape may object to there is a value that it
never objects to. Main statement: whatever is rejected for an attribute has that attribute, and with another
value of it, all else being the same, is not rejected for it. The rule of the clauses that test an order is the
one that blames an attribute under a name that is not its own.
-/
namespace BoundTree

/-- An attribute, the name under which it is blamed, and a value for which it never is. -/
structure Remedy where
  name : String
  blamed : String
  value : AttributeValue

/-- For an attribute that is blamed under its own name. -/
def Remedy.own (name : String) (value : AttributeValue) : Remedy := ⟨name, name, value⟩

namespace Shape

/-- For every attribute that the rule of the shape looks at. -/
def remedies : Shape → List Remedy
  | .unary | .incrementOrDecrement => [.own "is_checked" (.flag false)]
  | .binary => [.own "is_checked" (.flag false), .own "is_compare_text" (.flag false),
    .own "unary_operator_method" (.optionalHandle .method none)]
  | .tupleBinary | .relationalPattern => [.own "operator_kind" (.binaryOperator .equals)]
  | .conversion => [.own "conversion" (.conversion .identity)]
  | .coalesce => [.own "value_conversion" (.conversion .identity)]
  | .compoundAssignment => [.own "is_checked" (.flag false), .own "in_conversion" (.conversion .identity),
    .own "out_conversion" (.conversion .identity)]
  | .argument => [.own "in_conversion" (.conversion .identity),
    .own "out_conversion" (.conversion .identity)]
  | .relationalCaseClause => [⟨"relation", "operator_kind", .binaryOperator .equals⟩]
  | .binaryPattern => [.own "operator_kind" (.binaryOperator .and)]
  | .flowAnonymousFunction =>
    [.own "original" (.function ⟨0, .anonymousFunction, ⟨⟨0⟩, Span.make 0 0⟩⟩)]
  | _ => []

/-- The shape has the attribute, of the type of the value. -/
theorem mem_attributes_of_remedy {s : Shape} {r : Remedy} (h : r ∈ s.remedies) :
    (r.name, r.value.type) ∈ s.attributes := by
  have htable : ∀ s ∈ all, ∀ r ∈ s.remedies, (r.name, r.value.type) ∈ s.attributes := by decide +kernel
  exact htable s s.mem_all r h

/-- One shape has an attribute that is not blamed under its own name. -/
theorem blamed_eq_name {s : Shape} (hs : s ≠ .relationalCaseClause) {r : Remedy}
    (h : r ∈ s.remedies) : r.blamed = r.name := by
  have htable : ∀ s ∈ all, s ≠ .relationalCaseClause → ∀ r ∈ s.remedies, r.blamed = r.name := by
    decide +kernel
  exact htable s s.mem_all hs r h

end Shape

namespace Payload

variable {p : Payload} {h : Header} {k : Kind} {about : String} {why : Inconsistency}

/-- The names of the plain attributes, in declaration order. -/
theorem map_fst_attributes (p : Payload) : p.attributes.map (·.1) = p.shape.attributes.map (·.1) := by
  rw [← p.typed, List.map_map]
  rfl

/-- The payload with another value of one attribute, of the type that the shape asks for. -/
def set (p : Payload) (name : String) (v : AttributeValue) (h : (name, v.type) ∈ p.shape.attributes) :
    Payload where
  shape := p.shape
  tag := p.tag
  attributes := p.attributes.map fun a => if a.1 = name then (name, v) else a
  typed := by
    rw [List.map_map]
    refine (List.map_congr_left fun a ha => ?_).trans p.typed
    by_cases hname : a.1 = name
    · have hshape : (a.1, a.2.type) ∈ p.shape.attributes :=
        p.typed ▸ List.mem_map_of_mem (f := fun a => (a.1, a.2.type)) ha
      have hsame : (a.1, a.2.type) = (name, v.type) :=
        List.inj_on_of_nodup_map p.shape.nodup_attributes hshape h hname
      simp [hname, (Prod.mk.inj hsame).2]
    · simp [hname]

variable {name : String} {v : AttributeValue} (hv : (name, v.type) ∈ p.shape.attributes)

theorem attribute?_set_self : (p.set name v hv).attribute? name = some v := by
  obtain ⟨a, ha, hname⟩ : ∃ a ∈ p.attributes, a.1 = name :=
    List.mem_map.mp (p.map_fst_attributes ▸ List.mem_map_of_mem (f := Prod.fst) hv)
  have hmem : (name, v) ∈ (p.set name v hv).attributes :=
    List.mem_map.mpr ⟨a, ha, if_pos hname⟩
  exact attribute?_of_mem hmem

/-- All other attributes are left as they are. -/
theorem attribute?_set_of_ne {other : String} (h : other ≠ name) :
    (p.set name v hv).attribute? other = p.attribute? other := by
  have hfind : ((· == other) ∘ Prod.fst ∘ fun a : String × AttributeValue =>
      if a.1 = name then (name, v) else a) = fun a => a.1 == other := by
    funext a
    by_cases hname : a.1 = name <;> simp [hname]
  have hfound : (p.set name v hv).attributes.find? (·.1 == other) =
      (p.attributes.find? (·.1 == other)).map fun a => if a.1 = name then (name, v) else a := by
    rw [set, List.find?_map]
    exact congrArg (fun test => (p.attributes.find? test).map _) hfind
  rw [attribute?, attribute?, hfound, Option.map_map]
  cases hp : p.attributes.find? (·.1 == other) with
  | none => rfl
  | some a =>
    have ha : a.1 = other := by simpa using List.find?_some hp
    simp [show a.1 ≠ name from ha ▸ h]

theorem blame_eq_some {name : String} {applies : Bool} {reason : Inconsistency} :
    p.blame name applies reason = some (.inconsistentAttribute k about why) ↔
      applies = true ∧ p.kind = k ∧ name = about ∧ reason = why := by
  unfold blame
  split <;> simp_all

theorem require_ne {what : String} {present : Bool} :
    p.require what present ≠ some (.inconsistentAttribute k about why) := by
  unfold require
  split <;> simp

theorem checkConversion_eq_some {name : String} :
    p.checkConversion name = some (.inconsistentAttribute k about why) ↔
      ∃ c, (p.conversion? name).bind Conversion.contradiction? = some c ∧ p.kind = k ∧ name = about ∧
        .contradiction c = why := by
  unfold checkConversion
  cases (p.conversion? name).bind Conversion.contradiction? <;> simp

theorem checkRelation_eq_some {name : String} :
    p.checkRelation name = some (.inconsistentAttribute k about why) ↔
      p.operatorFails name BinaryOperator.isRelational = true ∧ p.kind = k ∧ "operator_kind" = about ∧
        .notRelational = why := blame_eq_some

theorem checkOverflow_eq_some :
    p.checkOverflow = some (.inconsistentAttribute k about why) ↔
      (p.flag "is_checked" && p.operatorFails "operator_kind" BinaryOperator.canBeChecked) = true ∧
        p.kind = k ∧ "is_checked" = about ∧ .uncheckedOperator = why := blame_eq_some

/-- What a rule objects to is one of the attributes that it looks at, of an operation of that kind. -/
theorem exists_remedy (herror : p.ruleError? h = some (.inconsistentAttribute k about why)) :
    k = p.kind ∧ ∃ r ∈ p.shape.remedies, r.blamed = about := by
  unfold ruleError? at herror
  unfold Shape.remedies
  split at herror <;> rename_i hshape <;>
    simp only [hshape, Option.orElse_eq_orElse, Option.orElse_eq_or, Option.or_eq_some_iff, blame_eq_some,
      checkConversion_eq_some, checkRelation_eq_some, checkOverflow_eq_some, require_ne, Remedy.own,
      List.exists_mem_cons_iff] at herror ⊢ <;>
    grind

/-! What a value that is known answers to the questions of a rule. -/

theorem flag_of {b : Bool} (hvalue : p.attribute? name = some (.flag b)) : p.flag name = b := by
  rw [flag, hvalue]

theorem isPresent_of {c : Category} (hvalue : p.attribute? name = some (.optionalHandle c none)) :
    p.isPresent name = false := by
  rw [isPresent, hvalue]
  rfl

theorem contradiction?_of {c : Conversion} (hvalue : p.attribute? name = some (.conversion c)) :
    (p.conversion? name).bind Conversion.contradiction? = c.contradiction? := by
  rw [conversion?, hvalue]
  rfl

theorem function?_of {f : FunctionRef} (hvalue : p.attribute? name = some (.function f)) :
    p.function? name = some f := by
  rw [function?, hvalue]

theorem operatorFails_of {o : BinaryOperator} (hvalue : p.attribute? name = some (.binaryOperator o))
    (test : BinaryOperator → Bool) : p.operatorFails name test = !test o := by
  rw [operatorFails, binaryOperator?, hvalue]
  rfl

/-- With the value that is given for it, an attribute is not what the rule objects to. -/
theorem ruleError?_ne_of_remedy {r : Remedy} (hr : r ∈ p.shape.remedies)
    (hvalue : p.attribute? r.name = some r.value) :
    p.ruleError? h ≠ some (.inconsistentAttribute k r.blamed why) := by
  intro herror
  have hrelational : BinaryOperator.equals.isRelational = true := rfl
  unfold ruleError? at herror
  unfold Shape.remedies at hr
  split at herror <;> rename_i hshape <;>
    simp only [hshape, Option.orElse_eq_orElse, Option.orElse_eq_or, Option.or_eq_some_iff, blame_eq_some,
      checkConversion_eq_some, checkRelation_eq_some, checkOverflow_eq_some, require_ne, Remedy.own,
      List.mem_cons, List.not_mem_nil, or_false] at herror hr <;>
    grind [flag_of, isPresent_of, contradiction?_of, → function?_of, operatorFails_of,
      Conversion.contradiction?_identity]

end Payload

/-- Only the rule of the shape objects to an attribute. -/
theorem Payload.error?_eq_inconsistent {p : Payload} {h : Header} {k : Kind} {about : String}
    {why : Inconsistency} (herror : p.error? h = some (.inconsistentAttribute k about why)) :
    p.ruleError? h = some (.inconsistentAttribute k about why) := by
  unfold error? Header.error? kindError? at herror
  grind

namespace Session

open Procedure

/-- An operation is rejected exactly for what is wrong with its header and payload. -/
theorem construct_rejected {s : Session} {header : Header} {payload : Payload} {cells : List CellId}
    {e : ConstructionError} :
    (construct header payload cells s).1 = .error (.rejected e) ↔ payload.error? header = some e := by
  rw [construct_apply]
  cases payload.error? header with
  | some e' => simp
  | none => cases s.constructionViolation? header payload cells <;> simp

/-- Wherever an operation is rejected for an attribute that is not as it must be: the kind that is told is its
own, and it has an attribute of which there is another value with which, all else being the same, it is never
again rejected for what was blamed. The attribute is the one that is named, but for the clauses that test an
order, of which `relation` is the attribute and `operator_kind` is named. -/
theorem rejection_blames {s t : Session} {header : Header} {p : Payload} {cells : List CellId} {k : Kind}
    {about : String} {why : Inconsistency}
    (h : construct header p cells s = (.error (.rejected (.inconsistentAttribute k about why)), t)) :
    k = p.kind ∧ ∃ name, name ∈ p.attributes.map (·.1) ∧
      (p.shape ≠ .relationalCaseClause → about = name) ∧
      (p.shape = .relationalCaseClause → about = "operator_kind" ∧ name = "relation") ∧
      ∃ v, ∃ hv : (name, v.type) ∈ p.shape.attributes,
        (∀ other, other ≠ name → (p.set name v hv).attribute? other = p.attribute? other) ∧
        ∀ (u : Session) cells' k' why', (construct header (p.set name v hv) cells' u).1 ≠
          .error (.rejected (.inconsistentAttribute k' about why')) := by
  have herror : p.error? header = some (.inconsistentAttribute k about why) :=
    construct_rejected.mp (congrArg Prod.fst h)
  obtain ⟨hkind, r, hr, rfl⟩ := Payload.exists_remedy (Payload.error?_eq_inconsistent herror)
  have hattribute := Shape.mem_attributes_of_remedy hr
  refine ⟨hkind, r.name, ?_, fun hshape => Shape.blamed_eq_name hshape hr, fun hshape => ?_, r.value,
    hattribute, fun other => Payload.attribute?_set_of_ne hattribute, fun u cells' k' why' hagain => ?_⟩
  · rw [p.map_fst_attributes]
    exact List.mem_map_of_mem (f := Prod.fst) hattribute
  · rw [hshape] at hr
    rw [List.mem_singleton.mp hr]
    exact ⟨rfl, rfl⟩
  · have hsame : r ∈ (p.set r.name r.value hattribute).shape.remedies := hr
    have hrule := Payload.error?_eq_inconsistent (construct_rejected.mp hagain)
    exact Payload.ruleError?_ne_of_remedy hsame (Payload.attribute?_set_self hattribute) hrule

/-- An assignment that joins texts, is checked for overflow, and converts in a way that cannot be. -/
def badAssignment : Payload where
  shape := .compoundAssignment
  tag := none
  attributes := [("operator_kind", .binaryOperator .concatenate), ("is_lifted", .flag false),
    ("is_checked", .flag true), ("operator_method", .optionalHandle .method none),
    ("in_conversion", .conversion missingIdentity), ("out_conversion", .conversion .identity)]
  typed := rfl

/-- The check is blamed first, and the conversion only when nothing is checked. -/
theorem rejection_blames_inOrder : ∃ t,
    construct { locus := ⟨⟨0⟩, Span.make 0 0⟩ } badAssignment [] (start true) =
      (.error (.rejected (.inconsistentAttribute .compoundAssignment "is_checked" .uncheckedOperator)), t) ∧
    "is_checked" ∈ badAssignment.attributes.map (·.1) ∧
    ∃ v, ∃ hv : ("is_checked", v.type) ∈ badAssignment.shape.attributes, ∀ (u : Session) cells' k' why',
      (construct { locus := ⟨⟨0⟩, Span.make 0 0⟩ } (badAssignment.set "is_checked" v hv) cells' u).1 ≠
        .error (.rejected (.inconsistentAttribute k' "is_checked" why')) := by
  have h := construct_apply { locus := ⟨⟨0⟩, Span.make 0 0⟩ } badAssignment [] (start true)
  have herror : badAssignment.error? { locus := ⟨⟨0⟩, Span.make 0 0⟩ } =
      some (.inconsistentAttribute .compoundAssignment "is_checked" .uncheckedOperator) := by decide
  rw [herror] at h
  obtain ⟨-, name, hname, habout, -, v, hv, -, hnever⟩ := rejection_blames h
  obtain rfl := habout (by decide)
  exact ⟨_, h, hname, v, hv, hnever⟩

/-- A clause that tests an order with a sum. -/
def sumClause : List Step :=
  [.build (emptyStatement (some "x")),
    .build (statement (some "c") .relationalCaseClause [.filled [.named "x"]]
      [.value (.binaryOperator .add), .value (.optionalHandle .label none)])]

/-- It is rejected for an attribute that no such clause has. -/
theorem rejection_blames_stranger :
    (((start true).run sumClause).map fun o =>
        match o.answer with
        | .error (.rejected e) => some e
        | _ => none) =
      [none, some (.inconsistentAttribute .relationalCaseClause "operator_kind" .notRelational)] ∧
    ∀ p : Payload, p.shape = .relationalCaseClause → "operator_kind" ∉ p.attributes.map (·.1) := by
  refine ⟨by decide, fun p hp => ?_⟩
  rw [p.map_fst_attributes, hp]
  decide

end Session
end BoundTree
