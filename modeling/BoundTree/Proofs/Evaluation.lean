import BoundTree.Proofs.Compositional

/-!
What is kept while expressions are evaluated. It has to be kept where a slot or an operation is made, of
which something is true that is true of all that the expression specifies. Main statement: then evaluating
the expression keeps it.
-/
namespace BoundTree

/-! The specifications in an expression, those that only a producer builds among them. -/

mutual

def NodeExpr.specs : NodeExpr → List NodeSpec
  | .named _ => []
  | .build spec => spec.specs
  | .malformed => []

/-- A specification comes in front of those in it. -/
def NodeSpec.specs : NodeSpec → List NodeSpec
  | .mk id header shape tag slots attributes =>
    .mk id header shape tag slots attributes :: (slotsSpecs slots ++ attributesSpecs attributes)

def SlotExpr.specs : SlotExpr → List NodeSpec
  | .filled values => nodesSpecs values
  | .moved _ => []
  | .deferred producer => producer.specs
  | .malformed => []

def Producer.specs : Producer → List NodeSpec
  | .mk _ _ first later => nodesSpecs first ++ listsSpecs later

def AttributeExpr.specs : AttributeExpr → List NodeSpec
  | .value _ => []
  | .symbol _ => []
  | .optionalSymbols _ => []
  | .function e => e.specs
  | .malformed => []

def nodesSpecs : List NodeExpr → List NodeSpec
  | [] => []
  | e :: es => e.specs ++ nodesSpecs es

def listsSpecs : List (List NodeExpr) → List NodeSpec
  | [] => []
  | es :: rest => nodesSpecs es ++ listsSpecs rest

def slotsSpecs : List SlotExpr → List NodeSpec
  | [] => []
  | e :: es => e.specs ++ slotsSpecs es

def attributesSpecs : List AttributeExpr → List NodeSpec
  | [] => []
  | e :: es => e.specs ++ attributesSpecs es

end

/-- What a slot may still build. -/
def Content.specs : Content → List NodeSpec
  | .filled _ => []
  | .deferred p _ _ _ => p.specs

/-- Every specification is for an operation of which something is true. -/
def Told (P : Header → Shape → Prop) (specs : List NodeSpec) : Prop :=
  ∀ spec ∈ specs, P spec.header spec.shape

section Told

variable {P : Header → Shape → Prop} {specs specs' : List NodeSpec}

theorem told_nil : Told P [] := fun _ h => nomatch h

theorem told_append : Told P (specs ++ specs') ↔ Told P specs ∧ Told P specs' := List.forall_mem_append

end Told

namespace Session

open Procedure

/-- There are as many slots as are asked for. -/
theorem length_of_evalSlots {arities : List Arity} {es : List SlotExpr} {cells : List CellId}
    {s t : Session} (h : evalSlots arities es s = (.ok cells, t)) : cells.length = arities.length := by
  induction arities generalizing es cells s with
  | nil =>
    rw [evalSlots] at h
    cases h
    rfl
  | cons arity arities ih =>
    cases es with
    | nil =>
      rw [evalSlots] at h
      cases h
    | cons e es =>
      rw [evalSlots] at h
      obtain ⟨c, u, -, h⟩ := bind_eq_ok h
      obtain ⟨rest, v, hrest, h⟩ := bind_eq_ok h
      cases h
      rw [List.length_cons, ih hrest, List.length_cons]

end Session

namespace Procedure

open Session

variable {P : Header → Shape → Prop} {L : ∀ {α : Type}, Procedure α → Prop}
  {F : Procedure NodeId → Prop}

/-- What is kept, and what is known besides of a procedure that makes an operation, which may then get a
name. -/
structure EvalLogic (P : Header → Shape → Prop) (L : ∀ {α : Type}, Procedure α → Prop)
    (F : Procedure NodeId → Prop) : Prop extends Compositional L where
  hold : ∀ holder, L (hold holder)
  intern : ∀ name, L (Session.intern name)
  newCell : ∀ arity content, Told P content.specs → L (Session.newCell arity content)
  takeSlot : ∀ arity name, L (Session.takeSlot arity name)
  assemble : ∀ {header shape} tag {cells : List CellId} values, P header shape →
    cells.length = shape.slots.length →
      F (ofOption .malformed (Payload.make? shape tag values) >>= fun payload =>
        Session.construct header payload cells)
  /-- What comes before may tell something of its results. -/
  after : ∀ {α : Type} {x : Procedure α} {f : α → Procedure NodeId} {Q : α → Prop}, L x →
    (∀ s a t, x s = (.ok a, t) → Q a) → (∀ a, Q a → F (f a)) → F (x >>= f)
  releasing : ∀ {x : Procedure NodeId}, F x → F (releasing x)
  named : ∀ {x : Procedure NodeId} id, F x →
    L (x >>= fun n => modify (·.bind id n) >>= fun _ => Pure.pure n)

namespace EvalLogic

variable (h : EvalLogic P L F)
include h

theorem functionRef (n : NodeId) : L (Session.functionRef n) :=
  h.reading (fun _ => rfl) fun _ => h.bind (h.ofOption _ _) fun _ => h.pure _

mutual

theorem evalNode : ∀ e, Told P e.specs → L (evalNode e)
  | .named id, _ => by
    rw [Session.evalNode]
    exact h.reading (fun _ => rfl) fun _ => h.ofOption _ _
  | .malformed, _ => by
    rw [Session.evalNode]
    exact h.fail _
  | .build spec, hspecs => by
    rw [Session.evalNode]
    exact evalSpec spec (by rwa [NodeExpr.specs] at hspecs)

theorem evalSpec : ∀ spec, Told P spec.specs → L (evalSpec spec)
  | .mk id header shape tag slots attributes, hspecs => by
    rw [NodeSpec.specs] at hspecs
    obtain ⟨hself, hrest⟩ := List.forall_mem_cons.mp hspecs
    obtain ⟨hslots, hattributes⟩ := told_append.mp hrest
    rw [Session.evalSpec]
    refine h.named id (h.releasing ?_)
    refine h.after (evalSlots _ slots hslots) (fun _ _ _ => length_of_evalSlots) fun cells hcells => ?_
    rw [List.length_map] at hcells
    exact h.after (Q := fun _ => True) (evalAttributes attributes hattributes)
      (fun _ _ _ _ => trivial) fun values _ => h.assemble tag values hself hcells

theorem evalNodes : ∀ es, Told P (nodesSpecs es) → L (evalNodes es)
  | [], _ => by
    rw [Session.evalNodes]
    exact h.pure _
  | e :: es, hspecs => by
    rw [nodesSpecs, told_append] at hspecs
    rw [Session.evalNodes]
    exact h.bind (evalNode e hspecs.1) fun _ => h.bind (h.hold _) fun _ =>
      h.bind (evalNodes es hspecs.2) fun _ => h.pure _

theorem evalSlot (arity : Arity) : ∀ e, Told P e.specs → L (evalSlot arity e)
  | .filled values, hspecs => by
    rw [SlotExpr.specs] at hspecs
    have hnodes := h.bind (evalNodes values hspecs) fun ops => h.newCell arity (.filled ops) told_nil
    rw [Session.evalSlot]
    dsimp only
    split
    · exact h.bind (h.fail .malformed) fun _ => hnodes
    · exact hnodes
  | .moved name, _ => by
    rw [Session.evalSlot]
    exact h.takeSlot arity name
  | .deferred producer, hspecs => by
    rw [Session.evalSlot]
    exact h.newCell arity _ (by rwa [SlotExpr.specs] at hspecs)
  | .malformed, _ => by
    rw [Session.evalSlot]
    exact h.fail _

theorem evalSlots : ∀ arities es, Told P (slotsSpecs es) → L (evalSlots arities es)
  | [], _, _ => by
    rw [Session.evalSlots]
    exact h.pure _
  | arity :: arities, e :: es, hspecs => by
    rw [slotsSpecs, told_append] at hspecs
    rw [Session.evalSlots]
    exact h.bind (evalSlot arity e hspecs.1) fun _ => h.bind (evalSlots arities es hspecs.2) fun _ =>
      h.pure _
  | _ :: _, [], _ => by
    rw [Session.evalSlots]
    exact h.fail _

theorem evalAttribute : ∀ e, Told P e.specs → L (evalAttribute e)
  | .value v, _ => by
    rw [Session.evalAttribute]
    split
    · exact h.fail _
    · exact h.pure v
  | .symbol name, _ => by
    rw [Session.evalAttribute]
    exact h.bind (h.intern name) fun _ => h.pure _
  | .optionalSymbols names, _ => by
    rw [Session.evalAttribute]
    exact h.bind (h.internAll h.intern names) fun _ => h.pure _
  | .function e, hspecs => by
    rw [AttributeExpr.specs] at hspecs
    rw [Session.evalAttribute]
    exact h.bind (evalNode e hspecs) fun n => h.bind (h.hold _) fun _ =>
      h.bind (h.functionRef n) fun _ => h.pure _
  | .malformed, _ => by
    rw [Session.evalAttribute]
    exact h.fail _

theorem evalAttributes : ∀ es, Told P (attributesSpecs es) → L (evalAttributes es)
  | [], _ => by
    rw [Session.evalAttributes]
    exact h.pure _
  | e :: es, hspecs => by
    rw [attributesSpecs, told_append] at hspecs
    rw [Session.evalAttributes]
    exact h.bind (evalAttribute e hspecs.1) fun _ => h.bind (evalAttributes es hspecs.2) fun _ =>
      h.pure _

end

end EvalLogic
end Procedure
end BoundTree
