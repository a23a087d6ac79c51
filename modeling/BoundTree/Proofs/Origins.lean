import BoundTree.Proofs.Evaluation
import BoundTree.Proofs.History
import BoundTree.Proofs.Kinds
import BoundTree.Proofs.Parents
import BoundTree.Proofs.Publication

/-!
Where operations come from. Every operation was specified, by a step or by a producer that a step came
with, or is a flow node that a flow graph asked for; it has the header that it was specified with, and a
slot for each one that its shape declares. Main statement: whatever has been done, a synthetic operation
belongs to no semantic model, and it is implicit unless it was specified like any other operation, with a
header that says otherwise.
-/
namespace BoundTree

theorem nodesSpecs_subset_of_mem {es : List NodeExpr} {lists : List (List NodeExpr)} (h : es ∈ lists) :
    nodesSpecs es ⊆ listsSpecs lists := by
  induction lists with
  | nil => cases h
  | cons l lists ih =>
    rw [listsSpecs]
    rcases List.mem_cons.mp h with rfl | h
    · exact List.subset_append_left _ _
    · exact List.subset_append_of_subset_right _ (ih h)

/-- The values of a run are among those of the producer. -/
theorem Producer.specs_valueOf (p : Producer) (run : Nat) : nodesSpecs (p.valueOf run) ⊆ p.specs := by
  have hvalues : p.specs = listsSpecs p.values := by
    cases p
    rw [specs, values, listsSpecs]
  exact hvalues ▸ nodesSpecs_subset_of_mem (p.valueOf_mem run)

namespace Content

@[simp] theorem specs_countRun (a : Content) : a.countRun.specs = a.specs := by cases a <;> rfl

@[simp] theorem specs_finishRun (a : Content) (run : Nat) : (a.finishRun run).specs = a.specs := by
  cases a <;> rfl

@[simp] theorem specs_publish (a : Content) (ops : List NodeId) : (a.publish ops).specs = a.specs := by
  rcases a with _ | ⟨_, _, _, _ | _⟩ <;> rfl

end Content

/-- What a flow node is built from. -/
def FlowExpr.specs : FlowExpr → List NodeSpec
  | .capture _ value => value.specs
  | .nullTest operand _ => operand.specs
  | .anonymousFunction wrapped => wrapped.specs
  | _ => []

def Step.specs : Step → List NodeSpec
  | .build e => e.specs
  | .flow _ _ e => e.specs
  | .makeSlot _ _ e => e.specs
  | _ => []

namespace Procedure

variable {α β : Type}

/-- What is true of a session stays true of it, whether the procedure succeeds or not. -/
def Maintains (I : Session → Prop) (x : Procedure α) : Prop := ∀ s, I s → I (x s).2

namespace Maintains

variable {I : Session → Prop} {x : Procedure α}

theorem pure (a : α) : Maintains I (Pure.pure a : Procedure α) := fun _ hs => hs

theorem fail (f : Fault) : Maintains I (fail f : Procedure α) := fun _ hs => hs

/-- What comes next may rely on what is known of the results. -/
theorem bind_of {f : α → Procedure β} {Q : α → Prop} (hx : Maintains I x)
    (hQ : ∀ s a t, x s = (.ok a, t) → Q a) (hf : ∀ a, Q a → Maintains I (f a)) :
    Maintains I (x >>= f) := by
  intro s hs
  have ht := hx s hs
  rw [bind_apply]
  rcases hr : x s with ⟨_ | a, t⟩ <;> rw [hr] at ht
  · exact ht
  · exact hf a (hQ s a t hr) t ht

theorem bind {f : α → Procedure β} (hx : Maintains I x) (hf : ∀ a, Maintains I (f a)) :
    Maintains I (x >>= f) := bind_of hx (fun _ _ _ _ => trivial) fun a _ => hf a

theorem reading {f : Session → Procedure α} (hf : ∀ s, Maintains I (f s)) : Maintains I (read >>= f) :=
  fun s hs => hf s s hs

theorem mapFault (f : Fault → Fault) (hx : Maintains I x) : Maintains I (mapFault f x) := by
  intro s hs
  rw [mapFault_apply]
  exact hx s hs

theorem compositional : Compositional fun x => Maintains I x where
  pure := .pure
  fail := .fail
  bind := .bind
  reading _ hf := .reading hf

end Maintains

theorem length_of_mapM {f : α → Procedure β} {as : List α} {bs : List β} {s t : Session}
    (h : as.mapM f s = (.ok bs, t)) : bs.length = as.length := by
  induction as generalizing bs s with
  | nil =>
    cases h
    rfl
  | cons a as ih =>
    rw [List.mapM_cons] at h
    obtain ⟨b, u, -, h⟩ := bind_eq_ok h
    obtain ⟨rest, v, hrest, h⟩ := bind_eq_ok h
    cases h
    rw [List.length_cons, ih hrest, List.length_cons]

end Procedure

namespace Session

open Procedure

/-- Something is true of every operation that is there, and of every one that a slot may still build; and
no slot is missing. -/
structure Sourced (P : Header → Shape → Prop) (s : Session) : Prop where
  node : ∀ n node, s.store.node? n = some node → P node.header node.shape
  whole : ∀ n node, s.store.node? n = some node → node.cells.length = node.shape.slots.length
  waiting : ∀ c content, s.store.content? c = some content → Told P content.specs

variable {P : Header → Shape → Prop} {α : Type}

abbrev Sources (P : Header → Shape → Prop) (x : Procedure α) : Prop := Maintains (Sourced P) x

theorem Sourced.of_store {s t : Session} (hs : s.Sourced P) (h : t.store = s.store) : t.Sourced P :=
  ⟨h ▸ hs.node, h ▸ hs.whole, h ▸ hs.waiting⟩

theorem sourced_start (P : Header → Shape → Prop) (verifies : Bool) :
    (Session.start verifies).Sourced P :=
  ⟨fun n node hn => by simp [Session.start, Store.node?] at hn,
    fun n node hn => by simp [Session.start, Store.node?] at hn,
    fun c content hc => by simp [Session.start, Store.content?, Store.cell?] at hc⟩

/-- What leaves the store as it is. -/
theorem sources_of_store {x : Procedure α} (h : ∀ s, (x s).2.store = s.store) : Sources P x :=
  fun s hs => hs.of_store (h s)

theorem sources_releasing {x : Procedure α} (hx : Sources P x) :
    Sources P (releasing x) := fun s hs => (hx s hs).of_store rfl

theorem sources_newCell (arity : Arity) (content : Content) (h : Told P content.specs) :
    Sources P (newCell arity content) := by
  intro s hs
  refine ⟨hs.node, hs.whole, fun c content' hc => ?_⟩
  change (s.store.addCell ⟨arity, content, none⟩).2.content? c = some content' at hc
  rw [Store.content?_addCell] at hc
  split at hc
  · cases hc
    exact h
  · exact hs.waiting c content' hc

theorem sources_takeSlot (arity : Arity) (name : String) : Sources P (takeSlot arity name) := by
  refine sources_of_store fun s => ?_
  rw [takeSlot_apply]
  split
  · rfl
  · split <;> rfl

theorem Sourced.withOperation {s : Session} (hs : s.Sourced P) {header : Header} {payload : Payload}
    {cells : List CellId} (h : P header payload.shape)
    (hcells : cells.length = payload.shape.slots.length) :
    (s.withOperation header payload cells).Sourced P where
  node n node' hn := by
    obtain ⟨node, hnode, hle⟩ := Store.le_addOperation hn
    rw [hle.header, Node.shape, hle.payload]
    split at hnode
    · cases hnode
      exact h
    · exact hs.node n node hnode
  whole n node' hn := by
    obtain ⟨node, hnode, hle⟩ := Store.le_addOperation hn
    rw [hle.cells, Node.shape, hle.payload]
    split at hnode
    · cases hnode
      exact hcells
    · exact hs.whole n node hnode
  waiting c content hc := by
    rw [Session.withOperation, Store.content?_addOperation] at hc
    exact hs.waiting c content hc

theorem sources_construct {header : Header} {payload : Payload} (h : P header payload.shape)
    {cells : List CellId} (hcells : cells.length = payload.shape.slots.length) :
    Sources P (construct header payload cells) := by
  intro s hs
  rw [construct_apply]
  split
  · exact hs.of_store rfl
  · split
    · exact hs.withOperation h hcells
    · exact (hs.withOperation h hcells).of_store rfl

/-- An operation of which it is true is built from its slots and the values of its attributes. -/
theorem sources_assemble {header : Header} {shape : Shape} (h : P header shape) (tag : Option Kind)
    {cells : List CellId} (hcells : cells.length = shape.slots.length) (values : List AttributeValue) :
    Sources P (ofOption .malformed (Payload.make? shape tag values) >>= fun payload =>
      construct header payload cells) := by
  cases hp : Payload.make? shape tag values with
  | none => exact .fail _
  | some payload =>
    have hshape := (Payload.make?_eq_some hp).1
    exact sources_construct (by rwa [hshape]) (by rwa [hshape])

theorem sources_bindName (id : Option String) (n : NodeId) : Sources P (modify (·.bind id n)) :=
  sources_of_store fun s => (s.bind_store id n).1

theorem sources_logic : EvalLogic P (fun x => Sources P x) (Sources P) where
  toCompositional := Maintains.compositional
  hold _ := sources_of_store fun _ => rfl
  intern _ := sources_of_store fun _ => rfl
  newCell := sources_newCell
  takeSlot := sources_takeSlot
  assemble tag _ values h hcells := sources_assemble h tag hcells values
  after hx hQ hf := hx.bind_of hQ hf
  releasing hx := sources_releasing hx
  named id hx := hx.bind fun n => (sources_bindName id n).bind fun _ => .pure _

/-! Reading. -/

/-- A slot that is told of a run may still build what it could. -/
theorem Sourced.modifyContent {s : Session} (hs : s.Sourced P) (c : CellId) {f : Content → Content}
    (hf : ∀ a : Content, (f a).specs = a.specs) :
    ({ s with store := s.store.modifyContent c f } : Session).Sourced P := by
  refine ⟨fun n node hn => hs.node n node ?_, fun n node hn => hs.whole n node ?_, fun d content hd => ?_⟩
  · rwa [Store.node?_modifyContent] at hn
  · rwa [Store.node?_modifyContent] at hn
  · rw [Store.content?_modifyContent] at hd
    split at hd
    · obtain ⟨a, ha, rfl⟩ := Option.map_eq_some_iff.mp hd
      rw [hf]
      exact hs.waiting c a ha
    · exact hs.waiting d content hd

theorem Sourced.started {s : Session} (hs : s.Sourced P) (c : CellId) (p : Producer) :
    (s.started c p).Sourced P :=
  (hs.modifyContent c Content.specs_countRun).of_store (s.started_store c p)

theorem Sourced.settle {s : Session} (hs : s.Sourced P) (c : CellId) (run : Nat)
    (candidate : List NodeId) : (s.settle c run candidate).Sourced P := by
  refine ⟨fun n node' hn => ?_, fun n node' hn => ?_, fun d content hd => ?_⟩
  · obtain ⟨node, hnode, hle⟩ := le_node_settle hn
    rw [hle.header, Node.shape, hle.payload]
    exact hs.node n node hnode
  · obtain ⟨node, hnode, hle⟩ := le_node_settle hn
    rw [hle.cells, Node.shape, hle.payload]
    exact hs.whole n node hnode
  · rw [content?_settle] at hd
    split at hd
    · obtain ⟨a, ha, rfl⟩ := Option.map_eq_some_iff.mp hd
      rw [Content.specs_publish, Content.specs_finishRun]
      exact hs.waiting c a ha
    · exact hs.waiting d content hd

theorem sources_produce {depth : Nat} (hread : ∀ c, Sources P (readCell depth c)) {p : Producer}
    (h : Told P p.specs) (run : Nat) : Sources P (produce depth p run) := by
  have hprepare : Sources P (prepare (readCell depth) p run) := by
    refine .reading fun s => ?_
    split
    · exact sources_releasing ((sources_logic.hold _).bind fun _ =>
        Maintains.bind (.reading fun _ => .pure _) fun cells =>
          Maintains.compositional.enumerate hread cells)
    · exact .pure _
  exact .mapFault _ (sources_releasing (hprepare.bind fun _ =>
    sources_logic.evalNodes _ fun spec hspec => h spec (p.specs_valueOf run hspec)))

theorem sources_readCell (depth : Nat) (c : CellId) : Sources P (readCell depth c) := by
  induction depth generalizing c with
  | zero => exact .fail _
  | succ depth ih =>
    intro s hs
    rcases s.cell_cases c with hc | ⟨ops, ho⟩ | ⟨cell, p, runs, finished, hc, hd⟩
    · rw [readCell_missing hc]
      exact hs
    · rw [readCell_published ho]
      exact hs
    · have hcontent : s.store.content? c = some (.deferred p runs finished none) := by
        simp [Store.content?, hc, hd]
      rw [readCell_deferred hc hd]
      refine (sources_produce ih (hs.waiting c _ hcontent) (runs + 1)).bind (fun candidate => ?_) _
        (hs.started c p)
      intro t ht
      cases hcell : t.store.cell? c with
      | none =>
        rw [offer_missing hcell]
        exact ht.modifyContent c (·.specs_finishRun _)
      | some cell =>
        rw [offer_apply _ _ hcell]
        split
        · exact ht.settle c _ candidate
        · exact (ht.settle c _ candidate).of_store rfl

theorem sources_reads : Reads fun x => Sources P x where
  toCompositional := Maintains.compositional
  operations c := by
    refine .reading fun s => ?_
    split
    · exact .pure _
    · exact .reading fun s => sources_readCell _ c
  warn _ _ := sources_of_store fun _ => rfl

/-! Flow nodes, and steps. -/

variable (hflow : ∀ header shape, header.isImplicit = true → P header shape)
include hflow

theorem sources_constructFlow (locus : Locus) (resultType : Option TypeId) {shape : Shape}
    {operands : List NodeId} (hoperands : operands.length = shape.slots.length)
    (attributes : List AttributeValue) :
    Sources P (constructFlow (flowHeader locus resultType) shape operands attributes) :=
  (Maintains.compositional.mapM (fun n => sources_newCell .one (.filled [n]) told_nil) operands).bind_of
    (fun _ _ _ => length_of_mapM) fun _ hcells =>
      sources_assemble (hflow _ _ rfl) none (hcells.trans hoperands) attributes

theorem sources_evalFlow (g : FlowGraph) (e : FlowExpr) (h : Told P e.specs) :
    Sources P (evalFlow g e) := by
  have hflow := sources_constructFlow hflow
  have hoperand : ∀ e, Told P e.specs → Sources P (evalOperand e) := fun e he =>
    (sources_logic.evalNode e he).bind fun _ => (sources_logic.hold _).bind fun _ =>
      .reading fun _ => (Maintains.compositional.ofOption _ _).bind fun _ => .pure _
  cases e with
  | capture id value =>
    exact sources_releasing ((hoperand value h).bind fun _ => hflow _ _ rfl _)
  | captureReference => exact hflow _ _ rfl _
  | nullTest operand boolean =>
    exact sources_releasing ((hoperand operand h).bind fun _ =>
      (Maintains.compositional.ofOption _ _).bind fun _ => hflow _ _ rfl _)
  | caughtException => exact hflow _ _ rfl _
  | anonymousFunction wrapped =>
    exact sources_releasing ((hoperand wrapped h).bind fun n => (sources_logic.functionRef n.1).bind fun _ =>
      hflow _ _ rfl _)
  | semaphore => exact hflow _ _ rfl _

theorem sources_perform (e : Step) (h : Told P e.specs) : Sources P (perform e) := by
  have hoption : ∀ {α : Type} (f : Fault) (a : Option α), Sources P (ofOption f a) :=
    Maintains.compositional.ofOption
  have hbuilt : ∀ n, Sources P (built n) := fun n =>
    .reading fun _ => (hoption _ _).bind fun _ => .pure _
  cases e with
  | build e => exact (sources_logic.evalNode e h).bind hbuilt
  | flow g id e =>
    exact (sources_evalFlow hflow g e h).bind fun n => (sources_bindName id n).bind fun _ => hbuilt n
  | ask id q =>
    refine Maintains.bind (.reading fun _ => (hoption _ _).bind fun n => sources_releasing ?_)
      fun _ => .pure _
    exact (sources_logic.hold _).bind fun _ => .reading fun _ => (hoption _ _).bind fun node =>
      sources_reads.answer n node q
  | calls => exact .reading fun _ => .pure _
  | drop id =>
    exact .reading fun _ => (hoption _ _).bind fun _ => (sources_of_store fun _ => rfl).bind
      fun _ => .pure _
  | makeSlot name arity e =>
    exact (sources_releasing ((sources_logic.evalSlot arity e h).bind fun c =>
      sources_of_store fun _ => rfl)).bind fun _ => .pure _
  | readSlot name =>
    exact .reading fun _ => (hoption _ _).bind fun c => sources_releasing
      ((sources_logic.hold _).bind fun _ => (sources_reads.operations c).bind fun _ => .pure _)
  | slotState name =>
    exact .reading fun _ => (hoption _ _).bind fun _ => (hoption _ _).bind fun _ => .pure _
  | sameHeader a b => exact .pure _
  | symbol name => exact .reading fun _ => .pure _
  | malformed => exact .fail _

/-- What is true of implicit operations, and of all that steps specify, is true of all that is built. -/
theorem Sourced.after {s : Session} (hs : s.Sourced P) {steps : List Step}
    (h : Told P (steps.flatMap Step.specs)) : (s.after steps).Sourced P := by
  induction steps generalizing s with
  | nil => exact hs
  | cons e steps ih =>
    rw [List.flatMap_cons, told_append] at h
    exact ih (sources_perform hflow e h.1 s hs) h.2

omit hflow

theorem Reached.sourced {verifies : Bool} {s : Session} (h : Reached verifies s) :
    s.Sourced fun _ _ => True := by
  induction h with
  | start => exact sourced_start _ verifies
  | @step s _ e ih => exact sources_perform (fun _ _ _ => trivial) e (fun _ _ => trivial) s ih

/-- No slot of an operation is missing. -/
theorem Reached.whole {verifies : Bool} {s : Session} (h : Reached verifies s) {n : NodeId} {node : Node}
    (hn : s.store.node? n = some node) : node.cells.length = node.shape.slots.length :=
  h.sourced.whole n node hn

/-- Whether links are checked or not, and whatever the steps came to: a synthetic operation belongs to
no semantic model, and it is implicit unless some step, or a producer that some step came with,
specifies an operation of its shape with its header. -/
theorem synthetic_origin (verifies : Bool) (steps : List Step) {n : NodeId} {node : Node}
    (hn : ((start verifies).after steps).store.node? n = some node)
    (hkind : node.kind.isSynthetic = true) :
    node.header.model = none ∧
      (node.header.isImplicit = false →
        ∃ spec ∈ steps.flatMap Step.specs, spec.header = node.header ∧ spec.shape = node.shape) := by
  obtain ⟨hheader, -, -⟩ := Payload.error?_eq_none.mp
    (((Reached.start : Reached verifies _).after steps).checked n node hn)
  refine ⟨(Header.error?_eq_none.mp hheader).2 hkind, fun himplicit => ?_⟩
  have hstart : (start verifies).Sourced fun header shape => header.isImplicit = true ∨
      ∃ spec ∈ steps.flatMap Step.specs, spec.header = header ∧ spec.shape = shape :=
    sourced_start _ verifies
  have htold := hstart.after (fun _ _ h => .inl h) fun spec hspec => .inr ⟨spec, hspec, rfl, rfl⟩
  exact (htold.node n node hn).resolve_left (by simp [himplicit])

/-- An exception is caught twice: as specified, and as a flow graph asks for it. -/
def caughtTwice : List Step :=
  [.build (statement (some "x") .caughtException [] []),
    .flow ⟨⟨0⟩⟩ (some "y") (.caughtException ⟨⟨0⟩, Span.make 0 0⟩ ⟨0⟩)]

theorem synthetic_origin_caughtTwice : ∃ a b,
    ((start true).after caughtTwice).store.node? 0 = some a ∧
      ((start true).after caughtTwice).store.node? 1 = some b ∧
      a.header.isImplicit = false ∧ b.header.isImplicit = true ∧
      a.header.model = none ∧ b.header.model = none ∧
      ∃ spec ∈ caughtTwice.flatMap Step.specs, spec.header = a.header ∧ spec.shape = a.shape := by
  obtain ⟨a, ha⟩ : ∃ a, ((start true).after caughtTwice).store.node? 0 = some a :=
    Option.isSome_iff_exists.mp (by decide)
  obtain ⟨b, hb⟩ : ∃ b, ((start true).after caughtTwice).store.node? 1 = some b :=
    Option.isSome_iff_exists.mp (by decide)
  have hfirst : (((start true).after caughtTwice).store.node? 0).map
      (fun node => (node.kind.isSynthetic, node.header.isImplicit)) = some (true, false) := by decide
  have hsecond : (((start true).after caughtTwice).store.node? 1).map
      (fun node => (node.kind.isSynthetic, node.header.isImplicit)) = some (true, true) := by decide
  rw [ha, Option.map_some, Option.some_inj, Prod.mk.injEq] at hfirst
  rw [hb, Option.map_some, Option.some_inj, Prod.mk.injEq] at hsecond
  obtain ⟨hmodel, hspec⟩ := synthetic_origin true caughtTwice ha hfirst.1
  exact ⟨a, b, ha, hb, hfirst.2, hsecond.2, hmodel,
    (synthetic_origin true caughtTwice hb hsecond.1).1, hspec hfirst.2⟩

/-- The one that was specified is a synthetic operation that is not implicit, and no step fails. -/
theorem synthetic_not_implicit :
    ((start true).run caughtTwice).all (·.answer.isOk) ∧
      ((start true).after caughtTwice).isAlive 0 = true ∧
      (((start true).after caughtTwice).store.node? 0).map
        (fun node => (node.kind.isSynthetic, node.header.isImplicit)) = some (true, false) := by
  have hnamed : ((start true).after caughtTwice).node? "x" = some 0 := by decide
  exact ⟨by decide, isAlive_of_node? hnamed (by decide), by decide⟩

end Session
end BoundTree
