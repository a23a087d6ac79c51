import BoundTree.Proofs.Compositional

/-!
Logics of procedures. A triple says what a procedure needs at hand, slots that it may install and
operations that it may refer to, and what it leaves at hand. Main statements: a logic in which slots and
operations can be made builds everything, and one in which a slot can be read as well takes every step.
-/
namespace BoundTree

namespace Session

/-- What leads to an operation. -/
inductive Mentions (s : Session) (n : NodeId) : Prop
  | bound {id : String} (h : (id, n) ∈ s.bindings)
  | held (h : Holder.node n ∈ s.held)
  | published {c : CellId} {ops : List NodeId} (h : s.store.published? c = some ops) (hn : n ∈ ops)
  | payload {m : NodeId} {node : Node} (h : s.store.node? m = some node)
      (hn : n ∈ node.payload.nodes)

theorem mentions_node? {s : Session} {id : String} {n : NodeId} (h : s.node? id = some n) :
    s.Mentions n := by
  obtain ⟨b, hb, rfl⟩ := Option.map_eq_some_iff.mp h
  exact .bound (List.mem_of_find?_eq_some hb)

theorem Mentions.congr {s t : Session} {n : NodeId} (h : t.Mentions n) (store : t.store = s.store)
    (bindings : t.bindings = s.bindings) (held : t.held = s.held) : s.Mentions n := by
  cases h with
  | bound h => exact .bound (bindings ▸ h)
  | held h => exact .held (held ▸ h)
  | published h hn => exact .published (store ▸ h) hn
  | payload h hn => exact .payload (store ▸ h) hn

/-- What a procedure has at hand: slots that it may install, and operations that it may refer to. -/
structure Holding where
  cells : List CellId := []
  nodes : List NodeId := []

namespace Holding

instance : Append Holding := ⟨fun a b => ⟨a.cells ++ b.cells, a.nodes ++ b.nodes⟩⟩

@[simp] theorem cells_append (a b : Holding) : (a ++ b).cells = a.cells ++ b.cells := rfl

@[simp] theorem nodes_append (a b : Holding) : (a ++ b).nodes = a.nodes ++ b.nodes := rfl

theorem append_assoc (a b c : Holding) : a ++ b ++ c = a ++ (b ++ c) := by
  cases a
  cases b
  cases c
  exact congrArg₂ Holding.mk (List.append_assoc _ _ _) (List.append_assoc _ _ _)

/-- What is at hand may be left lying. -/
structure Le (a b : Holding) : Prop where
  cells : a.cells.Subperm b.cells
  nodes : a.nodes ⊆ b.nodes

theorem Le.refl (a : Holding) : a.Le a := ⟨List.Subperm.refl _, fun _ h => h⟩

theorem Le.empty (a : Holding) : Le {} a := ⟨List.nil_subperm, List.nil_subset _⟩

theorem Le.append_left (a b : Holding) : a.Le (a ++ b) :=
  ⟨(List.sublist_append_left _ _).subperm, List.subset_append_left _ _⟩

theorem Le.append_right {a b : Holding} (h : a.Le b) (c : Holding) : (a ++ c).Le (b ++ c) :=
  ⟨(List.subperm_append_right _).mpr h.cells,
    fun _ hn => List.mem_append.mpr ((List.mem_append.mp hn).imp_left (h.nodes ·))⟩

end Holding

/-- The operations that values refer to. -/
def valueNodes (values : List AttributeValue) : List NodeId := values.filterMap (·.node?)

theorem nodes_make? {shape : Shape} {tag : Option Kind} {values : List AttributeValue}
    {payload : Payload} (h : Payload.make? shape tag values = some payload) :
    payload.nodes ⊆ valueNodes values := by
  obtain ⟨-, -, hattributes⟩ := Payload.make?_eq_some h
  intro n hn
  rw [Payload.nodes, hattributes] at hn
  obtain ⟨a, ha, hv⟩ := List.mem_filterMap.mp hn
  exact List.mem_filterMap.mpr ⟨a.2, (List.of_mem_zip ha).2, hv⟩

end Session

namespace Procedure

open Session

variable {α β : Type} {T : ∀ {α : Type}, Holding → Procedure α → (α → Holding) → Prop}

/-- Slots and operations can be made and referred to. -/
structure BuildLogic (T : ∀ {α : Type}, Holding → Procedure α → (α → Holding) → Prop) : Prop where
  pure : ∀ {α : Type} {pre : Holding} {post : α → Holding} {a : α}, (post a).Le pre →
    T pre (Pure.pure a) post
  fail : ∀ {α : Type} {pre : Holding} {post : α → Holding} (f : Fault), T pre (fail f) post
  bind : ∀ {α β : Type} {pre : Holding} {x : Procedure α} {mid : α → Holding}
    {f : α → Procedure β} {post : β → Holding}, T pre x mid → (∀ a, T (mid a) (f a) post) →
    T pre (x >>= f) post
  frame : ∀ {α : Type} {pre : Holding} {x : Procedure α} {post : α → Holding}, T pre x post →
    ∀ kept, T (pre ++ kept) x fun a => post a ++ kept
  weaken : ∀ {α : Type} {pre pre' : Holding} {x : Procedure α} {post post' : α → Holding},
    T pre x post → pre.Le pre' → (∀ a, (post' a).Le (post a)) → T pre' x post'
  /-- What the session leads to is at hand from then on. -/
  recalling : ∀ {α : Type} {pre : Holding} {f : Session → Procedure α} {post : α → Holding}
    (ns : Session → List NodeId), (∀ s n, n ∈ ns s → s.Mentions n) → (∀ s, f s.unchecked = f s) →
    (∀ s, T (pre ++ ⟨[], ns s⟩) (f s) post) → T pre (read >>= f) post
  releasing : ∀ {α : Type} {pre : Holding} {x : Procedure α} {post : α → Holding}, T pre x post →
    T pre (releasing x) post
  hold : ∀ n, T ⟨[], [n]⟩ (hold (.node n)) fun _ => ⟨[], [n]⟩
  bindName : ∀ id n, T ⟨[], [n]⟩ (modify (·.bind id n)) fun _ => ⟨[], [n]⟩
  intern : ∀ name, T {} (intern name) fun _ => {}
  newCell : ∀ arity content, content.isNew →
    T ⟨[], content.published?.getD []⟩ (newCell arity content) fun c => ⟨[c], []⟩
  takeSlot : ∀ arity name, T {} (takeSlot arity name) fun c => ⟨[c], []⟩
  construct : ∀ header payload cells,
    T ⟨cells, payload.nodes⟩ (construct header payload cells) fun n => ⟨[], [n]⟩

namespace BuildLogic

variable (h : BuildLogic @T)
include h

theorem reading {pre : Holding} {f : Session → Procedure α} {post : α → Holding}
    (same : ∀ s, f s.unchecked = f s) (hf : ∀ s, T pre (f s) post) : T pre (read >>= f) post :=
  h.recalling (fun _ => []) (fun _ _ hn => nomatch hn) same fun s =>
    h.weaken (hf s) (.append_left _ _) fun _ => .refl _

theorem forget {pre pre' : Holding} {x : Procedure α} (hx : T pre x fun _ => {}) (hpre : pre.Le pre') :
    T pre' x fun _ => {} :=
  h.weaken hx hpre fun _ => .refl _

/-- With nothing at hand. -/
theorem compositional : Compositional fun x => T {} x fun _ => {} where
  pure _ := h.pure (.refl _)
  fail f := h.fail f
  bind hx hf := h.bind hx hf
  reading same hf := h.reading same hf

theorem ofOption (f : Fault) (a : Option α) : T {} (Procedure.ofOption f a) fun _ => {} :=
  h.compositional.ofOption f a

theorem keepOption {pre : Holding} (f : Fault) (a : Option α) :
    T pre (Procedure.ofOption f a) fun _ => pre := by
  cases a with
  | none => exact h.fail f
  | some a => exact h.pure (.refl _)

/-- The operation of a name. -/
theorem named (id : String) :
    T {} (read >>= fun s => Procedure.ofOption .unknown (s.node? id)) fun n => ⟨[], [n]⟩ := by
  refine h.recalling (fun s => (s.node? id).toList) ?_ (fun _ => rfl) fun s => ?_
  · exact fun s n hn => mentions_node? (by simpa using hn)
  · cases s.node? id with
    | none => exact h.fail _
    | some n => exact h.pure (.refl _)

theorem internAll (names : List NameExpr) : T {} (internAll names) fun _ => {} :=
  h.compositional.internAll h.intern names

theorem functionRef (n : NodeId) : T ⟨[], [n]⟩ (functionRef n) fun f => ⟨[], [f.node]⟩ := by
  refine h.reading (fun _ => rfl) fun s => ?_
  exact h.bind (h.keepOption _ _) fun node => h.pure (.refl _)

/-- An operation from its slots and the values of its attributes. -/
theorem assemble (header : Header) (shape : Shape) (tag : Option Kind) (cells : List CellId)
    (values : List AttributeValue) :
    T ⟨cells, valueNodes values⟩ (Procedure.ofOption .malformed (Payload.make? shape tag values) >>=
      fun payload => Session.construct header payload cells) fun n => ⟨[], [n]⟩ := by
  cases hp : Payload.make? shape tag values with
  | none => exact h.fail .malformed
  | some payload =>
    exact h.weaken (h.construct header payload cells) ⟨List.Subperm.refl _, nodes_make? hp⟩
      fun _ => .refl _

mutual

theorem evalNode : ∀ e, T {} (evalNode e) fun n => ⟨[], [n]⟩
  | .named id => by
    rw [Session.evalNode]
    exact h.named id
  | .malformed => by
    rw [Session.evalNode]
    exact h.fail _
  | .build spec => by
    rw [Session.evalNode]
    exact evalSpec spec

theorem evalSpec : ∀ spec, T {} (evalSpec spec) fun n => ⟨[], [n]⟩
  | .mk id header shape tag slots attributes => by
    rw [Session.evalSpec]
    refine h.bind (h.releasing ?_) fun n => h.bind (h.bindName id n) fun _ => h.pure (.refl _)
    refine h.bind (evalSlots _ slots) fun cells => ?_
    refine h.bind (h.frame (evalAttributes attributes) ⟨cells, []⟩) fun values => ?_
    exact h.weaken (h.assemble header shape tag cells values)
      ⟨by simp [List.Subperm.refl], by simp⟩ fun _ => .refl _

theorem evalNodes : ∀ es, T {} (evalNodes es) fun ns => ⟨[], ns⟩
  | [] => by
    rw [Session.evalNodes]
    exact h.pure (.refl _)
  | e :: es => by
    rw [Session.evalNodes]
    refine h.bind (evalNode e) fun n => h.bind (h.hold n) fun _ => ?_
    refine h.bind (h.frame (evalNodes es) ⟨[], [n]⟩) fun ns => h.pure ⟨List.Subperm.refl _, ?_⟩
    intro m hm
    rcases List.mem_cons.mp hm with rfl | hm
    · exact List.mem_append_right _ (List.mem_singleton.mpr rfl)
    · exact List.mem_append_left _ hm

theorem evalSlot (arity : Arity) : ∀ e, T {} (evalSlot arity e) fun c => ⟨[c], []⟩
  | .filled values => by
    rw [Session.evalSlot]
    have hnodes := h.bind (evalNodes values) fun ops => h.newCell arity (.filled ops) rfl
    dsimp only
    split
    · have hfail : T {} (Procedure.fail .malformed : Procedure Unit) fun _ => {} := h.fail _
      exact h.bind hfail fun _ => hnodes
    · exact hnodes
  | .moved name => by
    rw [Session.evalSlot]
    exact h.takeSlot arity name
  | .deferred producer => by
    rw [Session.evalSlot]
    exact h.newCell arity (.deferred producer 0 [] none) (by simp [Content.isNew])
  | .malformed => by
    rw [Session.evalSlot]
    exact h.fail _

theorem evalSlots : ∀ arities es, T {} (evalSlots arities es) fun cs => ⟨cs, []⟩
  | [], _ => by
    rw [Session.evalSlots]
    exact h.pure (.refl _)
  | arity :: arities, e :: es => by
    rw [Session.evalSlots]
    refine h.bind (evalSlot arity e) fun c => ?_
    refine h.bind (h.frame (evalSlots arities es) ⟨[c], []⟩) fun cs => h.pure ⟨?_, ?_⟩
    · exact (List.perm_append_singleton c cs).symm.subperm
    · exact List.Subset.refl _
  | _ :: _, [] => by
    rw [Session.evalSlots]
    exact h.fail _

theorem evalAttribute : ∀ e, T {} (evalAttribute e) fun v => ⟨[], v.node?.toList⟩
  | .value v => by
    rw [Session.evalAttribute]
    split
    · exact h.fail _
    · next hv =>
      refine h.pure ⟨List.Subperm.refl _, ?_⟩
      cases hn : v.node? with
      | none => exact List.Subset.refl _
      | some n => simp [hn] at hv
  | .symbol name => by
    rw [Session.evalAttribute]
    exact h.bind (h.intern name) fun _ => h.pure (.refl _)
  | .optionalSymbols names => by
    rw [Session.evalAttribute]
    exact h.bind (h.internAll names) fun _ => h.pure (.refl _)
  | .function e => by
    rw [Session.evalAttribute]
    exact h.bind (evalNode e) fun n => h.bind (h.hold n) fun _ =>
      h.bind (h.functionRef n) fun f => h.pure (.refl _)
  | .malformed => by
    rw [Session.evalAttribute]
    exact h.fail _

theorem evalAttributes : ∀ es, T {} (evalAttributes es) fun vs => ⟨[], valueNodes vs⟩
  | [] => by
    rw [Session.evalAttributes]
    exact h.pure (.refl _)
  | e :: es => by
    rw [Session.evalAttributes]
    refine h.bind (evalAttribute e) fun v => ?_
    refine h.bind (h.frame (evalAttributes es) ⟨[], v.node?.toList⟩) fun vs =>
      h.pure ⟨List.Subperm.refl _, ?_⟩
    intro n hn
    cases hv : v.node? with
    | none =>
      rw [valueNodes, List.filterMap_cons_none hv] at hn
      exact List.mem_append_left _ hn
    | some m =>
      rw [valueNodes, List.filterMap_cons_some hv] at hn
      rcases List.mem_cons.mp hn with rfl | hn
      · exact List.mem_append_right _ (by simp)
      · exact List.mem_append_left _ hn

end

/-! Flow nodes. -/

theorem operands (ops : List NodeId) :
    T ⟨[], ops⟩ (ops.mapM fun n => Session.newCell .one (.filled [n])) fun cs => ⟨cs, []⟩ := by
  induction ops with
  | nil => exact h.pure (.refl _)
  | cons n ops ih =>
    rw [List.mapM_cons]
    have hcell : T ⟨[], n :: ops⟩ (Session.newCell .one (.filled [n])) fun c => ⟨[c], ops⟩ :=
      h.frame (h.newCell .one (.filled [n]) rfl) ⟨[], ops⟩
    refine h.bind hcell fun c => h.bind (h.weaken (h.frame ih ⟨[c], []⟩) ?_ fun _ => .refl _)
      fun cs => h.pure ⟨?_, ?_⟩
    · exact ⟨List.Subperm.refl _, by simp⟩
    · exact (List.perm_append_singleton c cs).symm.subperm
    · exact List.Subset.refl _

theorem constructFlow (header : Header) (shape : Shape) {pre : Holding} {ops : List NodeId}
    {values : List AttributeValue} (hpre : ops ++ valueNodes values ⊆ pre.nodes) :
    T pre (constructFlow header shape ops values) fun n => ⟨[], [n]⟩ := by
  have hflow : T ⟨[], ops ++ valueNodes values⟩ (Session.constructFlow header shape ops values)
      fun n => ⟨[], [n]⟩ :=
    h.bind (h.frame (h.operands ops) ⟨[], valueNodes values⟩) fun cells =>
      h.weaken (h.assemble header shape none cells values) ⟨by simp [List.Subperm.refl], by simp⟩
        fun _ => .refl _
  exact h.weaken hflow ⟨List.nil_subperm, hpre⟩ fun _ => .refl _

theorem evalOperand (e : NodeExpr) : T {} (evalOperand e) fun n => ⟨[], [n.1]⟩ := by
  refine h.bind (h.evalNode e) fun n => h.bind (h.hold n) fun _ => h.reading (fun _ => rfl) fun s => ?_
  exact h.bind (h.keepOption _ _) fun _ => h.pure (.refl _)

theorem evalFlow (g : FlowGraph) (e : FlowExpr) : T {} (evalFlow g e) fun n => ⟨[], [n]⟩ := by
  have hsubset : ∀ n : NodeId, [n] ⊆ (⟨[], [n]⟩ : Holding).nodes := fun n => List.Subset.refl _
  cases e with
  | capture id value =>
    exact h.releasing (h.bind (h.evalOperand value) fun n => h.constructFlow _ _ (hsubset n.1))
  | captureReference => exact h.constructFlow _ _ (List.nil_subset _)
  | nullTest operand boolean =>
    exact h.releasing (h.bind (h.evalOperand operand) fun n => h.bind (h.keepOption _ _)
      fun _ => h.constructFlow _ _ (hsubset n.1))
  | caughtException => exact h.constructFlow _ _ (List.nil_subset _)
  | anonymousFunction wrapped =>
    exact h.releasing (h.bind (h.evalOperand wrapped) fun n =>
      h.bind (h.functionRef n.1) fun f => h.constructFlow _ _ (hsubset f.node))
  | semaphore => exact h.constructFlow _ _ (List.nil_subset _)

end BuildLogic

/-- A slot can be read once what its producer does can be done; and names can be given and taken. -/
structure StepLogic (T : ∀ {α : Type}, Holding → Procedure α → (α → Holding) → Prop) : Prop
    extends BuildLogic T where
  producing : ∀ {α : Type} {pre : Holding} {x : Procedure α} {post : α → Holding}, T pre x post →
    T pre (mapFault producerFault x) post
  readCell : ∀ depth c, (∀ p run, T {} (produce depth p run) fun ops => ⟨[], ops⟩) →
    T {} (readCell (depth + 1) c) fun ops => ⟨[], ops⟩
  warn : ∀ count root, T {} (emit (.verificationFailed count root)) fun _ => {}
  holdCell : ∀ c, T {} (Procedure.hold (.cell c)) fun _ => {}
  dropName : ∀ id, T {} (modify fun s => { s with bindings := remove s.bindings id }) fun _ => {}
  nameSlot : ∀ name c,
    T ⟨[c], []⟩ (modify fun s => { s with slots := (name, c) :: remove s.slots name }) fun _ => {}

namespace StepLogic

variable (h : StepLogic @T)
include h

theorem enumerate {readOne : CellId → Procedure (List NodeId)}
    (hread : ∀ c, T {} (readOne c) fun ops => ⟨[], ops⟩) (cells : List CellId) :
    T {} (enumerate readOne cells) fun _ => {} :=
  h.compositional.enumerate (fun c => h.weaken (hread c) (.refl _) fun _ => .empty _) cells

theorem prepare {readOne : CellId → Procedure (List NodeId)}
    (hread : ∀ c, T {} (readOne c) fun ops => ⟨[], ops⟩) (p : Producer) (run : Nat) :
    T {} (prepare readOne p run) fun _ => {} := by
  refine h.recalling (fun s => (p.reenter.bind s.node?).toList) ?_ (fun _ => rfl) fun s => ?_
  · intro s n hn
    obtain ⟨id, -, hid⟩ := Option.bind_eq_some_iff.mp (by simpa using hn)
    exact mentions_node? hid
  · generalize p.reenter.bind s.node? = n
    split
    · have hcells : ∀ n, T ⟨[], [n]⟩ (childCells n) fun _ => {} := fun n =>
        h.reading (fun _ => rfl) fun _ => h.pure (.empty _)
      exact h.releasing (h.bind (h.hold _) fun _ => h.bind (hcells _) fun cells =>
        h.enumerate hread cells)
    · exact h.pure (.empty _)

theorem produceOf {depth : Nat} (hread : ∀ c, T {} (Session.readCell depth c) fun ops => ⟨[], ops⟩)
    (p : Producer) (run : Nat) : T {} (produce depth p run) fun ops => ⟨[], ops⟩ :=
  h.producing (h.releasing (h.bind (h.prepare hread p run) fun _ => h.evalNodes _))

/-- Slots are read to any depth. -/
theorem readSlotCell (depth : Nat) (c : CellId) :
    T {} (Session.readCell depth c) fun ops => ⟨[], ops⟩ := by
  induction depth generalizing c with
  | zero => exact h.fail _
  | succ depth ih => exact h.readCell depth c fun p run => h.produceOf ih p run

theorem produce (depth : Nat) (p : Producer) (run : Nat) :
    T {} (produce depth p run) fun ops => ⟨[], ops⟩ :=
  h.produceOf (h.readSlotCell depth) p run

theorem operations (c : CellId) : T {} (operations c) fun ops => ⟨[], ops⟩ := by
  refine h.recalling (fun s => (s.store.published? c).getD []) ?_ (fun _ => rfl) fun s => ?_
  · intro s n hn
    cases hp : s.store.published? c with
    | none => simp [hp] at hn
    | some ops => exact .published hp (by simpa [hp] using hn)
  · cases s.store.published? c with
    | some ops => exact h.pure (.refl _)
    | none =>
      exact h.reading (fun _ => rfl) fun s => h.weaken (h.readSlotCell _ c) (.empty _) fun _ => .refl _

/-- What holds of reading a slot holds of every question. -/
theorem reads : Reads fun x => T {} x fun _ => {} where
  toCompositional := h.compositional
  operations c := h.weaken (h.operations c) (.refl _) fun _ => .empty _
  warn := h.warn

theorem ask (id : String) (q : Query) : T {} (ask id q) fun _ => {} := by
  have hask : Session.ask id q = (read >>= fun s => Procedure.ofOption .unknown (s.node? id)) >>=
      fun n => inquire n q := (bind_assoc _ _ _).symm
  rw [hask]
  refine h.bind (h.named id) fun n => h.releasing (h.bind (h.hold n) fun _ => ?_)
  have hanswer : T {} (read >>= fun s => Procedure.ofOption .unknown (s.store.node? n) >>=
      fun node => Session.answer n node q) fun _ => {} :=
    h.reading (fun _ => rfl) fun _ => h.bind (h.ofOption _ _) fun node => h.reads.answer n node q
  exact h.forget hanswer (.empty _)

theorem built (n : NodeId) : T {} (built n) fun _ => {} :=
  h.reading (fun _ => rfl) fun _ => h.bind (h.ofOption _ _) fun _ => h.pure (.refl _)

/-- Every step is taken. -/
theorem perform (e : Step) : T {} (perform e) fun _ => {} := by
  cases e with
  | build e => exact h.bind (h.evalNode e) fun n => h.forget (h.built n) (.empty _)
  | flow g id e =>
    exact h.bind (h.evalFlow g e) fun n => h.bind (h.bindName id n) fun _ =>
      h.forget (h.built n) (.empty _)
  | ask id q => exact h.bind (h.ask id q) fun _ => h.pure (.refl _)
  | calls => exact h.reading (fun _ => rfl) fun _ => h.pure (.refl _)
  | drop id =>
    exact h.reading (fun _ => rfl) fun _ => h.bind (h.ofOption _ _) fun _ => h.bind (h.dropName id) fun _ =>
      h.pure (.refl _)
  | makeSlot name arity e =>
    exact h.bind (h.releasing (h.bind (h.evalSlot arity e) fun c => h.nameSlot name c)) fun _ =>
      h.pure (.refl _)
  | readSlot name =>
    exact h.reading (fun _ => rfl) fun _ => h.bind (h.ofOption _ _) fun c =>
      h.releasing (h.bind (h.holdCell c) fun _ => h.bind (h.operations c) fun _ => h.pure (.empty _))
  | slotState name =>
    exact h.reading (fun _ => rfl) fun _ => h.bind (h.ofOption _ _) fun _ =>
      h.bind (h.ofOption _ _) fun _ => h.pure (.refl _)
  | sameHeader a b => exact h.pure (.refl _)
  | symbol name => exact h.reading (fun _ => rfl) fun _ => h.pure (.refl _)
  | malformed => exact h.fail _

end StepLogic
end Procedure
end BoundTree
