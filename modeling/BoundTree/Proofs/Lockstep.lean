import BoundTree.Proofs.Mirror

/-!
Two runs that evaluate the same expressions, each in a session of its own. How the sessions and the results
of the one go with those of the other is left open, and has to be settled for the few ways in which slots
and operations are made. Main statement: then it is settled for whole expressions.
-/
namespace BoundTree

open Session

/-- What goes with what in two runs. The stores are those of the first one. -/
structure Pairing where
  session : Session → Session → Prop
  /-- What may become of a store meanwhile. -/
  later : Store → Store → Prop
  /-- Operations that are used like this. -/
  node : (String → Use) → NodeId → NodeId → Store → Prop
  nodes : (String → Use) → List NodeId → List NodeId → Store → Prop
  /-- Slots of these linkages. -/
  slots : List Linkage → List CellId → List CellId → Store → Prop

namespace Procedure

variable {us : List Use} {k : Pairing} {s t : Session}
  {T : ∀ {α β : Type}, Procedure α → Procedure β → Session → Session → (α → β → Store → Prop) → Prop}

/-- What can be said of two runs, as long as they use no other names and use them like this. -/
structure Lockstep (us : List Use) (k : Pairing) (T : ∀ {α β : Type}, Procedure α → Procedure β →
    Session → Session → (α → β → Store → Prop) → Prop) : Prop where
  pure : ∀ {α β : Type} {s t : Session} {R : α → β → Store → Prop} {a : α} {b : β}, k.session s t →
    R a b s.store → T (Pure.pure a) (Pure.pure b) s t R
  fail : ∀ {α β : Type} {s t : Session} {R : α → β → Store → Prop} (f : Fault),
    T (fail f) (fail f) s t R
  bind : ∀ {α β γ δ : Type} {s t : Session} {x : Procedure α} {y : Procedure β}
    {R : α → β → Store → Prop} {f : α → Procedure γ} {g : β → Procedure δ} {Q : γ → δ → Store → Prop},
    T x y s t R → (∀ a b s' t', k.session s' t' → k.later s.store s'.store → R a b s'.store →
      T (f a) (g b) s' t' Q) → T (x >>= f) (y >>= g) s t Q
  releasing : ∀ {α β : Type} {s t : Session} {x : Procedure α} {y : Procedure β}
    {R : α → β → Store → Prop}, T x y s t R → T (releasing x) (releasing y) s t R
  named : ∀ {s t : Session} {as : String → Use} {id : String}, k.session s t →
    (as id).id? = some id → as id ∈ us →
      T (read >>= fun s => Procedure.ofOption .unknown (s.node? id))
        (read >>= fun s => Procedure.ofOption .unknown (s.node? id)) s t (k.node as)
  hold : ∀ {s t : Session} (a b : Holder) {P : Store → Prop}, k.session s t → P s.store →
    T (hold a) (hold b) s t fun _ _ z => P z
  intern : ∀ {s t : Session} (name : String), k.session s t →
    T (intern name) (intern name) s t fun _ _ _ => True
  functionRef : ∀ {s t : Session} {as : String → Use} {n m : NodeId}, k.session s t →
    k.node as n m s.store → T (functionRef n) (functionRef m) s t
      fun f g _ => (AttributeValue.function g).blank = (AttributeValue.function f).blank
  filled : ∀ {s t : Session} (arity : Arity) {l : Linkage} {ns ms : List NodeId}, k.session s t →
    k.nodes (.ofLinkage l) ns ms s.store →
      T (newCell arity (.filled ns)) (newCell arity (.filled ms)) s t fun c d z => k.slots [l] [c] [d] z
  deferred : ∀ {s t : Session} (arity : Arity) (p : Producer) {l : Linkage}, k.session s t →
    T (newCell arity (.deferred p 0 [] none)) (newCell arity (.deferred p 0 [] none)) s t
      fun c d z => k.slots [l] [c] [d] z
  takeSlot : ∀ {s t : Session} (arity : Arity) {l : Linkage} {name : String}, k.session s t →
    .slot name ∈ us → T (takeSlot arity name) (takeSlot arity name) s t
      fun c d z => k.slots [l] [c] [d] z
  construct : ∀ {s t : Session} {as : String → Use} (header : Header) {p q : Payload}
    {cs ds : List CellId}, k.session s t → q.blank = p.blank →
      k.slots (p.shape.slots.map (·.linkage)) cs ds s.store →
        T (construct header p cs) (construct header q ds) s t (k.node as)
  bindName : ∀ {s t : Session} {as : String → Use} {id : Option String} {n m : NodeId},
    k.session s t → (∀ name, id = some name → .gives name ∈ us) → k.node as n m s.store →
      T (modify (·.bind id n)) (modify (·.bind id m)) s t fun _ _ z => k.node as n m z
  nodesNil : ∀ as z, k.nodes as [] [] z
  nodesCons : ∀ {as : String → Use} {n m : NodeId} {ns ms : List NodeId} {x z : Store},
    k.node as n m x → k.later x z → k.nodes as ns ms z → k.nodes as (n :: ns) (m :: ms) z
  slotsNil : ∀ z, k.slots [] [] [] z
  slotsCons : ∀ {l : Linkage} {ls : List Linkage} {c d : CellId} {cs ds : List CellId} {z : Store},
    k.slots [l] [c] [d] z → k.slots ls cs ds z → k.slots (l :: ls) (c :: cs) (d :: ds) z
  slotsLater : ∀ {ls : List Linkage} {cs ds : List CellId} {x z : Store}, k.slots ls cs ds x →
    k.later x z → k.slots ls cs ds z

namespace Lockstep

variable (h : Lockstep us k @T)
include h

theorem internAll (names : List NameExpr) (hst : k.session s t) :
    T (internAll names) (internAll names) s t fun a b _ =>
      (AttributeValue.optionalSymbols b).blank = (AttributeValue.optionalSymbols a).blank := by
  induction names generalizing s t with
  | nil => exact h.pure hst rfl
  | cons e names ih =>
    cases e with
    | malformed => exact h.fail _
    | absent =>
      refine h.bind (ih hst) fun a b s' t' h' _ hab => h.pure h' ?_
      simpa [AttributeValue.blank] using hab
    | name name =>
      refine h.bind (h.intern name hst) fun _ _ s' t' h' _ _ =>
        h.bind (ih h') fun a b s'' t'' h'' _ hab => h.pure h'' ?_
      simpa [AttributeValue.blank] using hab

/-- An operation from slots and attributes that go with each other. -/
theorem assemble (as : String → Use) (header : Header) (shape : Shape) (tag : Option Kind)
    {cs ds : List CellId} {vs ws : List AttributeValue} (hst : k.session s t)
    (hs : k.slots (shape.slots.map (·.linkage)) cs ds s.store)
    (hvs : ws.map AttributeValue.blank = vs.map AttributeValue.blank) :
    T (ofOption .malformed (Payload.make? shape tag vs) >>= fun p => Session.construct header p cs)
      (ofOption .malformed (Payload.make? shape tag ws) >>= fun q => Session.construct header q ds) s t
      (k.node as) := by
  have hsame : (Payload.make? shape tag ws).map Payload.blank =
      (Payload.make? shape tag vs).map Payload.blank := by
    rw [← Payload.make?_blank, hvs, Payload.make?_blank]
  cases hp : Payload.make? shape tag vs with
  | none =>
    rw [hp, Option.map_none, Option.map_eq_none_iff] at hsame
    rw [hsame]
    exact h.fail .malformed
  | some p =>
    rw [hp] at hsame
    obtain ⟨q, hq, hblank⟩ := Option.map_eq_some_iff.mp hsame
    rw [hq]
    exact h.construct header hst hblank (by rwa [(Payload.make?_eq_some hp).1])

mutual

theorem evalNode : ∀ (e : NodeExpr) {as : String → Use} {s t : Session},
    (∀ id, (as id).id? = some id) → e.uses as ⊆ us → k.session s t →
      T (evalNode e) (evalNode e) s t (k.node as)
  | .named id, as, s, t, has, hus, hst => by
    rw [Session.evalNode]
    exact h.named hst (has id) (hus (by simp [NodeExpr.uses]))
  | .malformed, as, s, t, _, _, _ => by
    rw [Session.evalNode]
    exact h.fail _
  | .build spec, as, s, t, _, hus, hst => by
    rw [Session.evalNode]
    exact evalSpec spec (by simpa [NodeExpr.uses] using hus) hst

theorem evalSpec : ∀ (spec : NodeSpec) {as : String → Use} {s t : Session}, spec.uses ⊆ us →
    k.session s t → T (evalSpec spec) (evalSpec spec) s t (k.node as)
  | .mk id header shape tag slots attributes, as, s, t, hus, hst => by
    rw [NodeSpec.uses, List.append_subset, List.append_subset] at hus
    rw [Session.evalSpec]
    have hmade := h.bind (evalSlots shape.slots slots hus.1.2 hst) fun cs ds s₁ t₁ h₁ _ hs =>
      h.bind (evalAttributes attributes hus.2 h₁) fun vs ws s₂ t₂ h₂ hlater hvs =>
        h.assemble as header shape tag h₂ (h.slotsLater hs hlater) hvs
    refine h.bind (h.releasing hmade) fun n m s' t' h' _ hnm => ?_
    have hgives : ∀ name, id = some name → .gives name ∈ us := fun name hid => hus.1.1 (by simp [hid])
    exact h.bind (h.bindName h' hgives hnm) fun _ _ _ _ h'' _ hnm => h.pure h'' hnm

theorem evalNodes : ∀ (es : List NodeExpr) {as : String → Use} {s t : Session},
    (∀ id, (as id).id? = some id) → nodesUses as es ⊆ us → k.session s t →
      T (evalNodes es) (evalNodes es) s t (k.nodes as)
  | [], as, s, t, _, _, hst => by
    rw [Session.evalNodes]
    exact h.pure hst (h.nodesNil as _)
  | e :: es, as, s, t, has, hus, hst => by
    rw [nodesUses, List.append_subset] at hus
    rw [Session.evalNodes]
    refine h.bind (evalNode e has hus.1 hst) fun n m s₁ t₁ h₁ _ hnm => ?_
    refine h.bind (h.hold _ _ h₁ hnm) fun _ _ s₂ t₂ h₂ _ hnm => ?_
    exact h.bind (evalNodes es has hus.2 h₂) fun ns ms s₃ t₃ h₃ hlater hns =>
      h.pure h₃ (h.nodesCons hnm hlater hns)

theorem evalSlot : ∀ (e : SlotExpr) (arity : Arity) {l : Linkage} {s t : Session}, e.uses l ⊆ us →
    k.session s t → T (evalSlot arity e) (evalSlot arity e) s t fun c d z => k.slots [l] [c] [d] z
  | .filled values, arity, l, s, t, hus, hst => by
    rw [Session.evalSlot]
    have hname : ∀ id, (Use.ofLinkage l id).id? = some id := fun id => by cases l <;> rfl
    have hcell : ∀ {s t}, k.session s t →
        T (Session.evalNodes values >>= fun ops => newCell arity (.filled ops))
          (Session.evalNodes values >>= fun ops => newCell arity (.filled ops)) s t
          fun c d z => k.slots [l] [c] [d] z := fun hst =>
      h.bind (evalNodes values hname (by simpa [SlotExpr.uses] using hus) hst)
        fun ns ms _ _ h' _ hns => h.filled arity h' hns
    dsimp only
    split
    · exact h.bind (R := fun _ _ _ => True) (h.fail _) fun _ _ _ _ h' _ _ => hcell h'
    · exact hcell hst
  | .moved name, arity, l, s, t, hus, hst => by
    rw [Session.evalSlot]
    exact h.takeSlot arity hst (hus (by simp [SlotExpr.uses]))
  | .deferred producer, arity, l, s, t, _, hst => by
    rw [Session.evalSlot]
    exact h.deferred arity producer hst
  | .malformed, arity, l, s, t, _, _ => by
    rw [Session.evalSlot]
    exact h.fail _

theorem evalSlots : ∀ (fields : List SlotField) (es : List SlotExpr) {s t : Session},
    slotsUses (fields.map (·.linkage)) es ⊆ us → k.session s t →
      T (evalSlots (fields.map (·.arity)) es) (evalSlots (fields.map (·.arity)) es) s t
        (k.slots (fields.map (·.linkage)))
  | [], es, s, t, _, hst => by
    rw [List.map_nil, Session.evalSlots]
    exact h.pure hst (h.slotsNil _)
  | field :: fields, e :: es, s, t, hus, hst => by
    rw [List.map_cons, slotsUses, List.append_subset] at hus
    rw [List.map_cons, Session.evalSlots]
    refine h.bind (evalSlot e field.arity hus.1 hst) fun c d s₁ t₁ h₁ _ hc => ?_
    exact h.bind (evalSlots fields es hus.2 h₁) fun cs ds s₂ t₂ h₂ hlater hcs =>
      h.pure h₂ (h.slotsCons (h.slotsLater hc hlater) hcs)
  | field :: fields, [], s, t, _, _ => by
    rw [List.map_cons, Session.evalSlots]
    exact h.fail _

theorem evalAttribute : ∀ (e : AttributeExpr) {s t : Session}, e.uses ⊆ us → k.session s t →
    T (evalAttribute e) (evalAttribute e) s t fun v w _ => w.blank = v.blank
  | .value v, s, t, _, hst => by
    rw [Session.evalAttribute]
    split
    · exact h.fail _
    · exact h.pure hst rfl
  | .symbol name, s, t, _, hst => by
    rw [Session.evalAttribute]
    exact h.bind (h.intern name hst) fun _ _ _ _ h' _ _ => h.pure h' rfl
  | .optionalSymbols names, s, t, _, hst => by
    rw [Session.evalAttribute]
    exact h.bind (h.internAll names hst) fun _ _ _ _ h' _ hab => h.pure h' hab
  | .function e, s, t, hus, hst => by
    rw [Session.evalAttribute]
    have hname : ∀ id, (Use.reference id).id? = some id := fun _ => rfl
    refine h.bind (evalNode e hname (by simpa [AttributeExpr.uses] using hus) hst)
      fun n m s₁ t₁ h₁ _ hnm => ?_
    refine h.bind (h.hold _ _ h₁ hnm) fun _ _ s₂ t₂ h₂ _ hnm => ?_
    exact h.bind (h.functionRef h₂ hnm) fun _ _ _ _ h₃ _ hfg => h.pure h₃ hfg
  | .malformed, s, t, _, _ => by
    rw [Session.evalAttribute]
    exact h.fail _

theorem evalAttributes : ∀ (es : List AttributeExpr) {s t : Session}, attributesUses es ⊆ us →
    k.session s t → T (evalAttributes es) (evalAttributes es) s t
      fun vs ws _ => ws.map AttributeValue.blank = vs.map AttributeValue.blank
  | [], s, t, _, hst => by
    rw [Session.evalAttributes]
    exact h.pure hst rfl
  | e :: es, s, t, hus, hst => by
    rw [attributesUses, List.append_subset] at hus
    rw [Session.evalAttributes]
    refine h.bind (evalAttribute e hus.1 hst) fun v w s₁ t₁ h₁ _ hv => ?_
    refine h.bind (evalAttributes es hus.2 h₁) fun vs ws s₂ t₂ h₂ _ hvs => h.pure h₂ ?_
    rw [List.map_cons, List.map_cons, hv, hvs]

end

end Lockstep
end Procedure
end BoundTree
