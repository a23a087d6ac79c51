import BoundTree.Proofs.Compositional

/-!
Procedures that do to what is left of a session what others do to the session. Main statements: what an
expression builds as if the compiler had supplied everything is what is left of what it builds, and a
question is answered from what is left.
-/
namespace BoundTree

namespace Procedure

open Session

variable {α β γ δ : Type}

/-- What is left of what the first procedure does is done by the second one, which fails where the first
one fails. -/
def Erases (g : α → β) (x : Procedure α) (y : Procedure β) : Prop :=
  ∀ s : Session, y s.bare = ((x s).1.map g, (x s).2.bare)

/-- The procedure asks for nothing that is lost. -/
abbrev Blind (x : Procedure α) : Prop := Erases id x x

namespace Erases

variable {g : α → γ} {k : β → δ} {x : Procedure α} {y : Procedure γ}

theorem pure (g : α → γ) (a : α) : Erases g (Pure.pure a) (Pure.pure (g a)) := fun _ => rfl

theorem fail (g : α → γ) (f : Fault) : Erases g (Procedure.fail f) (Procedure.fail f) := fun _ => rfl

theorem bind {f : α → Procedure β} {f' : γ → Procedure δ} (hx : Erases g x y)
    (hf : ∀ a, Erases k (f a) (f' (g a))) : Erases k (x >>= f) (y >>= f') := by
  intro s
  rw [bind_apply, bind_apply, hx s]
  rcases x s with ⟨e | a, t⟩
  · rfl
  · exact hf a t

theorem reading {f : Session → Procedure α} {f' : Session → Procedure γ}
    (hf : ∀ s : Session, Erases g (f s) (f' s.bare)) : Erases g (read >>= f) (read >>= f') :=
  fun s => hf s s

theorem modify {f f' : Session → Session} (hf : ∀ s : Session, f' s.bare = (f s).bare) :
    Erases id (Procedure.modify f) (Procedure.modify f') := fun s => by
  rw [modify_apply, modify_apply, hf]
  rfl

theorem releasing (hx : Erases g x y) : Erases g (Procedure.releasing x) (Procedure.releasing y) := by
  intro s
  rw [releasing_apply, releasing_apply, hx s]
  rfl

theorem mapFault (f : Fault → Fault) (hx : Erases g x y) :
    Erases g (Procedure.mapFault f x) (Procedure.mapFault f y) := by
  intro s
  rw [mapFault_apply, mapFault_apply, hx s]
  rcases x s with ⟨_ | _, _⟩ <;> rfl

theorem ofOption (g : α → γ) (f : Fault) (a : Option α) :
    Erases g (Procedure.ofOption f a) (Procedure.ofOption f (a.map g)) := by
  cases a with
  | none => exact fail g f
  | some a => exact pure g a

theorem mapM {f : α → Procedure β} {f' : α → Procedure δ} (hf : ∀ a, Erases k (f a) (f' a))
    (l : List α) : Erases (List.map k) (l.mapM f) (l.mapM f') := by
  induction l with
  | nil => exact pure (List.map k) []
  | cons a l ih =>
    rw [List.mapM_cons, List.mapM_cons]
    exact (hf a).bind fun b => ih.bind fun bs => pure (List.map k) (b :: bs)

end Erases

theorem blind_hold (h : Holder) : Blind (hold h) := .modify fun _ => rfl

theorem blind_emit (e : Event) : Blind (emit e) := .modify fun _ => rfl

theorem blind_sequential : Sequential fun x => Blind x where
  pure _ := .pure id _
  fail _ := .fail id _
  bind hx hf := hx.bind hf

theorem blind_ofOption (f : Fault) (a : Option α) : Blind (Procedure.ofOption f a) :=
  blind_sequential.ofOption f a

/-! Building. -/

theorem blind_intern (name : String) : Blind (intern name) := fun _ => rfl

theorem blind_takeSlot (arity : Arity) (name : String) : Blind (takeSlot arity name) := by
  intro s
  have harity : ∀ c, (s.store.bare.cell? c).map (·.arity) = (s.store.cell? c).map (·.arity) := fun c => by
    rw [Store.cell?_bare, Option.map_map]
    rfl
  have hslots : s.bare.slots = s.slots := rfl
  rw [takeSlot_apply, takeSlot_apply, hslots]
  cases lookup s.slots name with
  | none => rfl
  | some c =>
    simp only [store_bare, harity]
    split <;> rfl

theorem erases_newCell (arity : Arity) (content : Content) :
    Erases id (newCell arity content) (newCell arity content.bare) := by
  intro s
  rw [newCell_apply, newCell_apply, store_bare, Store.size_cells_bare, ← Store.bare_addCell]
  rfl

theorem erases_functionRef (n : NodeId) : Erases FunctionRef.bare (functionRef n) (functionRef n) := by
  refine .reading fun s => ?_
  rw [store_bare, Store.node?_bare]
  exact (Erases.ofOption Node.bare _ _).bind fun node => .pure FunctionRef.bare _

/-- An operation is rejected, or its check fails, wherever it comes from. -/
theorem erases_construct (header : Header) (payload : Payload) (cells : List CellId) :
    Erases id (construct header payload cells) (construct header.bare payload.bare cells) := by
  intro s
  rw [construct_apply, construct_apply, Payload.error?_bare, constructionViolation?_bare]
  cases payload.error? header with
  | some e => rfl
  | none =>
    rw [store_bare, Store.size_nodes_bare]
    cases s.constructionViolation? header payload cells with
    | none => exact Prod.ext rfl (s.bare_withOperation header payload cells).symm
    | some v =>
      exact Prod.ext rfl (congrArg (fun t : Session =>
        { t with events := .linkViolated .construction v :: s.events })
        (s.bare_withOperation header payload cells).symm)

theorem erases_assemble (header : Header) (shape : Shape) (tag : Option Kind) (cells : List CellId)
    (values : List AttributeValue) :
    Erases id (Procedure.ofOption .malformed (Payload.make? shape tag values) >>= fun payload =>
        construct header payload cells)
      (Procedure.ofOption .malformed (Payload.make? shape tag (values.map AttributeValue.bare)) >>=
        fun payload => construct header.bare payload cells) := by
  rw [Payload.make?_bare]
  exact (Erases.ofOption Payload.bare _ _).bind fun payload => erases_construct header payload cells

theorem blind_bindName (id : Option String) (n : NodeId) : Blind (modify fun s => s.bind id n) :=
  .modify fun s => (s.bare_bind id n).symm

mutual

theorem erases_evalNode : ∀ e : NodeExpr, Erases id (evalNode e) (evalNode e.bare)
  | .named name => by
    rw [NodeExpr.bare, evalNode]
    exact .reading fun s => blind_ofOption _ _
  | .malformed => by
    rw [NodeExpr.bare, evalNode]
    exact .fail id _
  | .build spec => by
    rw [NodeExpr.bare, evalNode, evalNode]
    exact erases_evalSpec spec

theorem erases_evalSpec : ∀ spec : NodeSpec, Erases id (evalSpec spec) (evalSpec spec.bare)
  | .mk name header shape tag slots attributes => by
    rw [NodeSpec.bare, evalSpec, evalSpec]
    refine Erases.bind (.releasing ?_) fun n => (blind_bindName name n).bind fun _ => .pure id n
    exact (erases_evalSlots _ slots).bind fun cells => (erases_evalAttributes attributes).bind
      fun values => erases_assemble header shape tag cells values

theorem erases_evalNodes : ∀ es, Erases id (evalNodes es) (evalNodes (nodesBare es))
  | [] => by
    rw [nodesBare, evalNodes]
    exact .pure id _
  | e :: es => by
    rw [nodesBare, evalNodes, evalNodes]
    exact (erases_evalNode e).bind fun n => (blind_hold _).bind fun _ =>
      (erases_evalNodes es).bind fun ns => .pure id _

theorem erases_evalSlot (arity : Arity) : ∀ e : SlotExpr,
    Erases id (evalSlot arity e) (evalSlot arity e.bare)
  | .filled values => by
    have hcell : Erases id (evalNodes values >>= fun ops => newCell arity (.filled ops))
        (evalNodes (nodesBare values) >>= fun ops => newCell arity (.filled ops)) :=
      (erases_evalNodes values).bind fun ops => erases_newCell arity (.filled ops)
    have hlength : (nodesBare values).length = values.length := by rw [nodesBare_eq, List.length_map]
    rw [SlotExpr.bare, evalSlot, evalSlot, hlength]
    dsimp only
    split
    · exact (Erases.fail id Fault.malformed).bind fun _ => hcell
    · exact hcell
  | .moved name => by
    rw [SlotExpr.bare, evalSlot]
    exact blind_takeSlot arity name
  | .deferred producer => by
    rw [SlotExpr.bare, evalSlot, evalSlot]
    exact erases_newCell arity _
  | .malformed => by
    rw [SlotExpr.bare, evalSlot]
    exact .fail id _

theorem erases_evalSlots : ∀ arities es,
    Erases id (evalSlots arities es) (evalSlots arities (slotsBare es))
  | [], _ => by
    rw [evalSlots, evalSlots]
    exact .pure id _
  | arity :: arities, e :: es => by
    rw [slotsBare, evalSlots, evalSlots]
    exact (erases_evalSlot arity e).bind fun c => (erases_evalSlots arities es).bind fun cs =>
      .pure id _
  | _ :: _, [] => by
    rw [slotsBare, evalSlots]
    exact .fail id _

theorem erases_evalAttribute : ∀ e : AttributeExpr,
    Erases AttributeValue.bare (evalAttribute e) (evalAttribute e.bare)
  | .value v => by
    rw [AttributeExpr.bare, evalAttribute]
    split
    · exact .fail _ _
    · next hv =>
      have hbare : v.bare = v := AttributeValue.bare_of_node? (by simpa using hv)
      have hpure := Erases.pure AttributeValue.bare v
      rwa [hbare] at hpure
  | .symbol name => by
    rw [AttributeExpr.bare, evalAttribute]
    exact (blind_intern name).bind fun symbol => .pure AttributeValue.bare (.symbol symbol)
  | .optionalSymbols names => by
    rw [AttributeExpr.bare, evalAttribute]
    exact Erases.bind (blind_sequential.internAll blind_intern names) fun ss =>
      .pure AttributeValue.bare (.optionalSymbols ss)
  | .function e => by
    rw [AttributeExpr.bare, evalAttribute, evalAttribute]
    exact (erases_evalNode e).bind fun n => (blind_hold _).bind fun _ =>
      (erases_functionRef n).bind fun f => .pure AttributeValue.bare (.function f)
  | .malformed => by
    rw [AttributeExpr.bare, evalAttribute]
    exact .fail _ _

theorem erases_evalAttributes : ∀ es,
    Erases (List.map AttributeValue.bare) (evalAttributes es) (evalAttributes (attributesBare es))
  | [] => by
    rw [attributesBare, evalAttributes]
    exact .pure (List.map AttributeValue.bare) []
  | e :: es => by
    rw [attributesBare, evalAttributes, evalAttributes]
    exact (erases_evalAttribute e).bind fun v => (erases_evalAttributes es).bind fun vs =>
      .pure (List.map AttributeValue.bare) (v :: vs)

end

/-! Flow nodes, which come from where their operands come from. -/

theorem erases_constructFlow (header : Header) (shape : Shape) (operands : List NodeId)
    (values : List AttributeValue) : Erases id (constructFlow header shape operands values)
      (constructFlow header.bare shape operands (values.map AttributeValue.bare)) := by
  have hcells : Blind (operands.mapM fun n => newCell .one (.filled [n])) := by
    have hmap := Erases.mapM (fun n => erases_newCell .one (.filled [n])) operands
    rwa [List.map_id_fun] at hmap
  exact hcells.bind fun cells => erases_assemble header shape none cells values

theorem erases_evalOperand (e : NodeExpr) :
    Erases (fun x : NodeId × Header => (x.1, x.2.bare)) (evalOperand e) (evalOperand e.bare) := by
  refine (erases_evalNode e).bind fun n => (blind_hold _).bind fun _ => .reading fun s => ?_
  rw [store_bare, Store.node?_bare]
  exact (Erases.ofOption Node.bare _ _).bind fun node =>
    .pure (fun x : NodeId × Header => (x.1, x.2.bare)) _

theorem erases_evalFlow (g : FlowGraph) (e : FlowExpr) :
    Erases id (evalFlow g e) (evalFlow g e.bare) := by
  cases e with
  | capture name value =>
    exact .releasing ((erases_evalOperand value).bind fun x =>
      erases_constructFlow (flowHeader x.2.locus none) .flowCapture [x.1] [.handle _ name])
  | captureReference locus name type isInitialization =>
    exact erases_constructFlow (flowHeader locus type) _ [] _
  | nullTest operand boolean =>
    exact .releasing ((erases_evalOperand operand).bind fun x => (blind_ofOption _ boolean).bind
      fun boolean => erases_constructFlow (flowHeader x.2.locus (some boolean)) .nullTest [x.1] [])
  | caughtException locus type => exact erases_constructFlow (flowHeader locus (some type)) _ [] _
  | anonymousFunction wrapped =>
    exact .releasing ((erases_evalOperand wrapped).bind fun x => (erases_functionRef x.1).bind
      fun f => erases_constructFlow (flowHeader x.2.locus x.2.resultType) .flowAnonymousFunction []
        [.function f, .handle _ g.context])
  | semaphore locus guarded boolean =>
    exact erases_constructFlow (flowHeader locus (some boolean)) _ [] _

/-! Reading slots. -/

theorem erases_produce {depth : Nat} (hread : ∀ c, Blind (Session.readCell depth c)) (p : Producer)
    (run : Nat) : Erases id (Session.produce depth p run) (Session.produce depth p.bare run) := by
  have hcells : ∀ n, Blind (Session.childCells n) := fun n => .reading fun s => by
    rw [store_bare, Store.node?_bare, Option.elim_map]
    simp only [Function.comp_def, Node.childCells_bare]
    exact .pure id _
  have hprepare : Erases id (prepare (Session.readCell depth) p run)
      (prepare (Session.readCell depth) p.bare run) := by
    refine .reading fun s => ?_
    rw [Producer.reenter_bare]
    have hsame : s.bare.node? = s.node? := rfl
    rw [hsame]
    split
    · exact .releasing ((blind_hold _).bind fun _ => (hcells _).bind fun cells =>
        blind_sequential.enumerate hread cells)
    · exact .pure id _
  unfold Session.produce
  rw [Producer.valueOf_bare]
  exact .mapFault _ (.releasing (hprepare.bind fun _ => erases_evalNodes _))

theorem cell?_bare_of {s : Session} {c : CellId} {cell : Option Cell} (h : s.store.cell? c = cell) :
    s.bare.store.cell? c = cell.map Cell.bare := by rw [store_bare, Store.cell?_bare, h]

theorem blind_offer (c : CellId) (run : Nat) (candidate : List NodeId) :
    Blind (finishRun c run >>= fun _ => offer c run candidate) := by
  intro s
  cases hc : s.store.cell? c with
  | none =>
    have hbare : s.bare.store.cell? c = none := cell?_bare_of hc
    rw [offer_missing hc, offer_missing hbare]
    exact Prod.ext rfl (congrArg (fun store => { s with store })
      (Store.bare_modifyContent (fun a => a.bare_finishRun run) s.store c).symm)
  | some cell =>
    have hbare : s.bare.store.cell? c = some cell.bare := cell?_bare_of hc
    rw [offer_apply run candidate hc, offer_apply run candidate hbare, publicationViolation?_bare,
      store_bare, Store.published?_bare, ← bare_settle]
    cases s.publicationViolation? c run candidate <;> rfl

/-- A producer runs in the same reads, to the same values. -/
theorem blind_readCell (depth : Nat) (c : CellId) : Blind (Session.readCell depth c) := by
  induction depth generalizing c with
  | zero => exact .fail id _
  | succ depth ih =>
    intro s
    rcases cell_cases s c with hc | ⟨ops, ho⟩ | ⟨cell, p, runs, finished, hc, hd⟩
    · have hbare : s.bare.store.cell? c = none := cell?_bare_of hc
      rw [readCell_missing hc, readCell_missing hbare]
      rfl
    · have hbare : s.bare.store.published? c = some ops := by rw [store_bare, Store.published?_bare, ho]
      rw [readCell_published ho, readCell_published hbare]
      rfl
    · have hbare : s.bare.store.cell? c = some cell.bare := cell?_bare_of hc
      have hwaits : cell.bare.content = .deferred p.bare runs finished none := by
        rw [Cell.bare, hd]
        rfl
      rw [readCell_deferred hc hd, readCell_deferred hbare hwaits, ← bare_started]
      exact (erases_produce ih p _).bind (fun candidate => blind_offer c _ candidate) _

theorem blind_operations (c : CellId) : Blind (operations c) := by
  refine .reading fun s => ?_
  rw [store_bare, Store.published?_bare]
  cases s.store.published? c with
  | some ops => exact .pure id _
  | none =>
    refine .reading fun s => ?_
    rw [store_bare, Store.budget_bare]
    exact blind_readCell _ c

/-- What is true of reading a slot is true of every walk. -/
theorem blind_browses : Browses fun x => Blind x where
  toSequential := blind_sequential
  reading same hf s := (congrFun (same s).2 s.bare).trans (hf s s)
  operations := blind_operations
  warn _ _ := blind_emit _

end Procedure
end BoundTree
