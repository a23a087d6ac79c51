import BoundTree.Construction

/-!
Payloads whose values are replaced by others that differ in what only readers see: the numbers of names,
and of a function all but its kind. Main statement: what keeps an operation from being built is the same
afterwards.
-/
namespace BoundTree

/-- The values differ at most in what no rule asks for. -/
inductive AttributeValue.Resembles : AttributeValue → AttributeValue → Prop
  | same (v : AttributeValue) : Resembles v v
  | symbol (s t : Symbol) : Resembles (.symbol s) (.symbol t)
  | optionalSymbols (ss ts : List (Option Symbol)) : Resembles (.optionalSymbols ss) (.optionalSymbols ts)
  | function {f g : FunctionRef} (h : g.kind = f.kind) : Resembles (.function f) (.function g)

theorem AttributeValue.Resembles.type {v w : AttributeValue} (h : v.Resembles w) : w.type = v.type := by
  cases h <;> rfl

namespace Payload

variable {f : AttributeValue → AttributeValue} (hf : ∀ v : AttributeValue, v.Resembles (f v))
  (p : Payload)

/-- The payload with other values that resemble its own. -/
def retouch : Payload where
  shape := p.shape
  tag := p.tag
  attributes := p.attributes.map fun a => (a.1, f a.2)
  typed := by simpa [Function.comp_def, fun v => (hf v).type] using p.typed

theorem attribute?_retouch (name : String) :
    (p.retouch hf).attribute? name = (p.attribute? name).map f := by
  simp only [attribute?, retouch, List.find?_map, Option.map_map]
  rfl

/-- An attribute is there in both, with values that resemble each other, or in neither. -/
theorem attribute?_resembles (name : String) :
    (p.attribute? name = none ∧ (p.retouch hf).attribute? name = none) ∨
      ∃ v w, v.Resembles w ∧ p.attribute? name = some v ∧ (p.retouch hf).attribute? name = some w := by
  rw [attribute?_retouch]
  cases p.attribute? name with
  | none => exact .inl ⟨rfl, rfl⟩
  | some v => exact .inr ⟨v, f v, hf v, rfl, rfl⟩

theorem flag_retouch (name : String) : (p.retouch hf).flag name = p.flag name := by
  unfold flag
  rcases p.attribute?_resembles hf name with ⟨h, h'⟩ | ⟨v, w, hvw, h, h'⟩ <;> rw [h, h']
  cases hvw <;> rfl

theorem unaryOperator?_retouch (name : String) :
    (p.retouch hf).unaryOperator? name = p.unaryOperator? name := by
  unfold unaryOperator?
  rcases p.attribute?_resembles hf name with ⟨h, h'⟩ | ⟨v, w, hvw, h, h'⟩ <;> rw [h, h']
  cases hvw <;> rfl

theorem binaryOperator?_retouch (name : String) :
    (p.retouch hf).binaryOperator? name = p.binaryOperator? name := by
  unfold binaryOperator?
  rcases p.attribute?_resembles hf name with ⟨h, h'⟩ | ⟨v, w, hvw, h, h'⟩ <;> rw [h, h']
  cases hvw <;> rfl

theorem conversion?_retouch (name : String) :
    (p.retouch hf).conversion? name = p.conversion? name := by
  unfold conversion?
  rcases p.attribute?_resembles hf name with ⟨h, h'⟩ | ⟨v, w, hvw, h, h'⟩ <;> rw [h, h']
  cases hvw <;> rfl

theorem isPresent_retouch (name : String) : (p.retouch hf).isPresent name = p.isPresent name := by
  unfold isPresent
  rcases p.attribute?_resembles hf name with ⟨h, h'⟩ | ⟨v, w, hvw, h, h'⟩ <;> rw [h, h']
  cases hvw <;> rfl

/-- A rule asks of a function only of what kind it is. -/
theorem function?_retouch (name : String) : ((p.retouch hf).function? name).map FunctionRef.kind =
    (p.function? name).map FunctionRef.kind := by
  unfold function?
  rcases p.attribute?_resembles hf name with ⟨h, h'⟩ | ⟨v, w, hvw, h, h'⟩ <;> rw [h, h']
  cases hvw with
  | function hkind => exact congrArg some hkind
  | _ => rfl

theorem evaluationOrder_retouch : (p.retouch hf).evaluationOrder = p.evaluationOrder := by
  unfold evaluationOrder
  rw [flag_retouch]
  rfl

theorem ruleError?_retouch (h : Header) : (p.retouch hf).ruleError? h = p.ruleError? h := by
  have hfunction : ((p.retouch hf).function? "original").any (fun g => g.kind ≠ .anonymousFunction) =
      (p.function? "original").any fun g => g.kind ≠ .anonymousFunction := by
    have hkinds := congrArg (fun k => k.any fun k => k ≠ .anonymousFunction)
      (p.function?_retouch hf "original")
    simpa only [Option.any_map, Function.comp_def] using hkinds
  have hshape : (p.retouch hf).shape = p.shape := rfl
  have hkind : (p.retouch hf).kind = p.kind := rfl
  simp only [ruleError?, require, blame, checkOverflow, checkRelation, checkConversion, operatorFails,
    flag_retouch, unaryOperator?_retouch, binaryOperator?_retouch, conversion?_retouch,
    isPresent_retouch, hkind, hfunction, hshape]
  rfl

theorem error?_retouch (h : Header) : (p.retouch hf).error? h = p.error? h := by
  have hkind : (p.retouch hf).kind = p.kind := rfl
  simp only [error?, ruleError?_retouch, hkind]
  rfl

theorem make?_retouch (shape : Shape) (tag : Option Kind) (values : List AttributeValue) :
    make? shape tag (values.map f) = (make? shape tag values).map (retouch hf) := by
  have htypes : ∀ names : List String, (names.zip (values.map f)).map (fun a => (a.1, a.2.type)) =
      (names.zip values).map fun a => (a.1, a.2.type) := by
    intro names
    rw [List.zip_map_right, List.map_map]
    exact List.map_congr_left fun a _ => by simp [fun v => (hf v).type]
  unfold make?
  dsimp only
  by_cases h : ((shape.attributes.map (·.1)).zip values).map (fun a => (a.1, a.2.type)) =
      shape.attributes
  · rw [dif_pos h, dif_pos ((htypes _).trans h)]
    simp only [Option.map_some, retouch, List.zip_map_right]
    rfl
  · rw [dif_neg h, dif_neg fun h' => h ((htypes _).symm.trans h')]
    rfl

end Payload
end BoundTree
