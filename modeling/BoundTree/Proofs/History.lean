import BoundTree.Proofs.Parents

/-!
What a session tells of an earlier one. An operation keeps its facts for good; all that happens to it is
that its parent link is set, once, and that its slots get their values, once each. Main statement: this
holds from before to after every step, whatever the step comes to, and a link that is set on the way was
set by the building of the parent or by a value that came for one of its child slots.
-/
namespace BoundTree.Session

open Procedure

/-- How an operation gets its parent from one moment to the next. -/
inductive Adopts (s t : Session) (n p : NodeId) : Prop
  /-- The parent has just been built, with the operation in a child slot that had its value already. -/
  | built {header : Header} {payload : Payload} {cells : List CellId} {node : Node} {c : CellId}
      {ops : List NodeId} (now : t = s.withOperation header payload cells)
      (new : p = s.store.nodes.size) (parent : t.store.node? p = some node)
      (slot : (.attached, c) ∈ node.linkedCells) (filled : s.store.published? c = some ops)
      (mem : n ∈ ops)
  /-- A run of the producer of a child slot of the parent has come to a value. -/
  | produced {u : Session} {c : CellId} {depth run runs : Nat} {producer : Producer}
      {finished : List Nat} {published : Option (List NodeId)} {candidate : List NodeId} {node : Node}
      (now : t = s.settle c run candidate) (parent : s.store.node? p = some node)
      (slot : (.attached, c) ∈ node.linkedCells) (owner : s.store.owner? c = some ⟨p, .attached⟩)
      (lazy : s.store.content? c = some (.deferred producer runs finished published))
      (value : produce depth producer run u = (.ok candidate, s)) (mem : n ∈ candidate)

/-- An operation that was there is there with the same facts, its link and its values, and a link that
came since has an origin. -/
structure History (s t : Session) : Prop where
  facts : ∀ {n node}, s.store.node? n = some node → ∃ node', t.store.node? n = some node' ∧
    node'.header = node.header ∧ node'.kind = node.kind ∧ node'.payload = node.payload ∧
      node'.cells = node.cells
  value : ∀ {c ops}, s.store.published? c = some ops → t.store.published? c = some ops
  lazy : ∀ {c p runs finished published},
    s.store.content? c = some (.deferred p runs finished published) → ∃ runs' finished' published',
      t.store.content? c = some (.deferred p runs' finished' published')
  link : ∀ {n p}, s.store.link? n = some p → t.store.link? n = some p
  origin : ∀ {n p}, s.store.link? n = none → t.store.link? n = some p → ∃ u v, s.Happenings u ∧
    u.store.link? n = none ∧ u.Adopts v n p ∧ v.store.link? n = some p ∧ v.Happenings t

/-- A value for a slot that holds no children links nothing. -/
theorem link?_settle_of_adopter? {s : Session} {c : CellId} (h : s.store.adopter? c = none)
    (run : Nat) (candidate : List NodeId) (n : NodeId) :
    (s.settle c run candidate).store.link? n = s.store.link? n := by
  rw [link?_settle, h]
  split
  · cases s.store.link? n <;> rfl
  · rfl

/-- What happens at once sets a link in one of two ways. -/
theorem Happening.adopts {s t : Session} (h : s.Happening t) (hs : s.Adopted) {n p : NodeId}
    (before : s.store.link? n = none) (after : t.store.link? n = some p) : s.Adopts t n p := by
  have hnew : t.store.link? n ≠ s.store.link? n := by simp [before, after]
  cases h with
  | adds h =>
    cases h with
    | names store => exact absurd (by rw [store]) hnew
    | report => exact absurd rfl hnew
    | addCell => exact absurd rfl hnew
    | @addOperation header payload cells he =>
      rw [Store.link?_addOperation, before] at after
      split at after
      · next hin =>
        cases after
        obtain ⟨c, ops, hc, ho, hn⟩ := Store.mem_heldIn.mp hin.1
        obtain ⟨node, hnode, hle⟩ : ∃ node, (s.withOperation header payload cells).store.node?
            s.store.nodes.size = some node ∧ (Node.mk header payload cells none).Le node := by
          refine ⟨_, by rw [withOperation, Store.node?_addOperation, if_pos rfl]; rfl, ?_⟩
          split
          · exact Node.le_adopted _ _
          · exact .refl _
        exact .built rfl rfl hnode (hle.linkedCells ▸ hc) ho hn
      · cases after
  | startRun c => exact absurd rfl hnew
  | @settle u c depth run runs producer finished published candidate content value =>
    rw [link?_settle, before] at after
    split at after
    · next hin =>
      have howner : s.store.owner? c = some ⟨p, .attached⟩ := Store.adopter?_eq_some.mp after
      obtain ⟨node, hnode, hc⟩ := hs.owner howner
      exact .produced rfl hnode hc howner content value hin.1
    · cases after

/-- Every link that came since was set at some moment. -/
theorem Happenings.origin {s t : Session} (h : s.Happenings t) (hs : s.Adopted) {n p : NodeId}
    (before : s.store.link? n = none) (after : t.store.link? n = some p) :
    ∃ u v, s.Happenings u ∧ u.store.link? n = none ∧ u.Adopts v n p ∧ v.store.link? n = some p ∧
      v.Happenings t := by
  induction h with
  | refl =>
    rw [before] at after
    cases after
  | @tail u t hsu hut ih =>
    cases hu : u.store.link? n with
    | none =>
      have hadopted : u.Adopted := (Happenings.changes hsu).keeps Change.adopted hs
      exact ⟨u, t, hsu, hu, hut.adopts hadopted hu after, after, .refl⟩
    | some q =>
      -- a link that is set stays, so this one was set before
      have hq : t.store.link? n = some q := hut.change.le.link? hu
      rw [after] at hq
      obtain ⟨v, w, hsv, hv, hvw, hw, hwu⟩ := ih (hu.trans hq.symm)
      exact ⟨v, w, hsv, hv, hvw, hw, hwu.tail hut⟩

theorem Happenings.history {s t : Session} (h : s.Happenings t) (hs : s.Adopted) : s.History t where
  facts hn := by
    obtain ⟨node', hn', hle⟩ := h.changes.le.node hn
    exact ⟨node', hn', hle.header, hle.kind, hle.payload, hle.cells⟩
  value ho := h.changes.le.published? ho
  lazy hc := by
    obtain ⟨runs', finished', published', hc', -⟩ := h.changes.le.deferred hc
    exact ⟨runs', finished', published', hc'⟩
  link hn := h.changes.le.link? hn
  origin before after := h.origin hs before after

/-- Building links what the child slots of the new operation hold, and nothing else, whether its check
fails or not. -/
theorem link?_construct (s : Session) (header : Header) (payload : Payload) (cells : List CellId)
    {n : NodeId}
    (h : n ∉ s.store.heldIn .attached ((payload.shape.slots.map (·.linkage)).zip cells)) :
    (construct header payload cells s).2.store.link? n = s.store.link? n := by
  have hsame : (s.withOperation header payload cells).store.link? n = s.store.link? n := by
    rw [withOperation, Store.link?_addOperation, if_neg fun hin => h hin.1]
  rw [construct_apply]
  cases payload.error? header with
  | some e => rfl
  | none => cases s.constructionViolation? header payload cells <;> exact hsame

/-- All links are as they were. -/
def SameLinks (s t : Session) : Prop := ∀ n, t.store.link? n = s.store.link? n

theorem SameLinks.of_store {s t : Session} (h : t.store = s.store) : s.SameLinks t := fun _ => by
  rw [h]

theorem SameLinks.of_within {α : Type} {x : Procedure α} (h : Within SameLinks x) (s : Session) :
    s.SameLinks (x s).2 := by
  have hchain : Relation.ReflTransGen SameLinks s (x s).2 := h s
  generalize (x s).2 = t at hchain
  induction hchain with
  | refl => exact fun _ => rfl
  | tail _ hlast ih => exact fun n => (hlast n).trans (ih n)

/-- An operation without slots links nothing. -/
theorem constructFlow_sameLinks (header : Header) {shape : Shape} (hshape : shape.slots = [])
    (values : List AttributeValue) : Within SameLinks (constructFlow header shape [] values) := by
  unfold constructFlow
  rw [List.mapM_nil, pure_bind]
  cases hp : Payload.make? shape none values with
  | none => exact .fail _
  | some payload =>
    refine fun s => .single fun n => ?_
    apply link?_construct
    simp [(Payload.make?_eq_some hp).1, hshape, Store.heldIn]

theorem ofOption_sameLinks {α : Type} (f : Fault) (a : Option α) :
    Within SameLinks (ofOption f a) := by
  cases a with
  | none => exact .fail f
  | some a => exact .pure a

/-- What follows an operation sets no link, so the links are those that the operation came with. -/
theorem SameLinks.of_bind {α β : Type} {x : Procedure α} {f : α → Procedure β} {s t : Session}
    (hx : t.SameLinks (x s).2) (hf : ∀ a, Within SameLinks (f a)) : t.SameLinks ((x >>= f) s).2 := by
  rw [bind_apply]
  rcases hr : x s with ⟨e | a, u⟩
  · rw [hr] at hx
    exact hx
  · rw [hr] at hx
    exact fun n => (SameLinks.of_within (hf a) u n).trans (hx n)

/-- An operand of a flow node links nothing before the node is there. -/
theorem evalOperand_sameLinks (e : NodeExpr) (s : Session) :
    (evalNode e s).2.SameLinks (evalOperand e s).2 := by
  apply SameLinks.of_bind (fun _ => rfl)
  intro n
  apply Within.bind fun s => .single fun _ => rfl
  intro _
  apply Within.reading
  intro s
  exact (ofOption_sameLinks _ _).bind fun _ => .pure _

/-- To stand for a function in a flow graph sets no link, beside those that the function came with. -/
theorem flow_anonymousFunction_sameLinks (g : FlowGraph) (id : Option String) (wrapped : NodeExpr)
    (s : Session) :
    (evalNode wrapped s).2.SameLinks (s.step (.flow g id (.anonymousFunction wrapped))).session := by
  have hflow : (evalNode wrapped s).2.SameLinks (evalFlow g (.anonymousFunction wrapped) s).2 := by
    rw [evalFlow, releasing_apply]
    apply SameLinks.of_bind (evalOperand_sameLinks wrapped s)
    intro operand
    have hfunction : Within SameLinks (functionRef operand.1) :=
      .reading fun s => (ofOption_sameLinks _ _).bind fun _ => .pure _
    exact hfunction.bind fun function => constructFlow_sameLinks _ rfl _
  apply SameLinks.of_bind hflow
  intro n
  have hname : Within SameLinks (modify (·.bind id n)) := fun s =>
    .single (.of_store (s.bind_store id n).1)
  exact hname.bind fun _ => .reading fun s => (ofOption_sameLinks _ _).bind fun _ => .pure _

/-- At every step from a session that was reached, whether links are checked and whatever the step comes
to: what was there keeps its facts, its values and its links, and every link that comes has an origin.
What an operation holds apart from its children, as a value or as the function that it stands for, is not
linked by it. -/
theorem step_history {verifies : Bool} {s : Session} (hs : Reached verifies s) (e : Step) :
    s.History (s.step e).session ∧
    (∀ (u : Session) header payload cells n,
      n ∉ u.store.heldIn .attached ((payload.shape.slots.map (·.linkage)).zip cells) →
        (construct header payload cells u).2.store.link? n = u.store.link? n) ∧
    (∀ (u : Session) c run candidate, (∀ p, u.store.owner? c ≠ some ⟨p, .attached⟩) →
      u.SameLinks (u.settle c run candidate)) ∧
    ∀ (u : Session) g id wrapped, (evalNode wrapped u).2.SameLinks
      (u.step (.flow g id (.anonymousFunction wrapped))).session := by
  have hhistory : s.History (s.step e).session :=
    Happenings.history (s.happenings_step e) hs.adopted
  refine ⟨hhistory, fun u header payload cells n => link?_construct u header payload cells,
    fun u c run candidate howner => ?_, fun u g id wrapped => ?_⟩
  · apply link?_settle_of_adopter?
    exact Option.eq_none_iff_forall_ne_some.mpr fun p hp => howner p (Store.adopter?_eq_some.mp hp)
  · exact flow_anonymousFunction_sameLinks g id wrapped u

/-- A block waits for a statement that has no parent yet. -/
def awaitedStatement : List Step :=
  [.build (emptyStatement (some "x")),
    .build (block (some "b") (.deferred (.mk none none [.named "x"] [])))]

/-- The statement gets its parent when the children of the block are asked for. -/
theorem step_history_awaited :
    Reached true ((start true).after awaitedStatement) ∧
      ((start true).after awaitedStatement).store.link? 0 = none ∧
      ∃ u v, ((start true).after awaitedStatement).Happenings u ∧ u.Adopts v 0 1 := by
  have hs : Reached true ((start true).after awaitedStatement) := Reached.start.after _
  have hunlinked : ((start true).after awaitedStatement).store.link? 0 = none := by decide
  have hlinked : (((start true).after awaitedStatement).step
      (.ask "b" (.children none))).session.store.link? 0 = some 1 := by decide
  obtain ⟨u, v, hu, -, hadopts, -⟩ :=
    (step_history hs (.ask "b" (.children none))).1.origin hunlinked hlinked
  exact ⟨hs, hunlinked, u, v, hu, hadopts⟩

end BoundTree.Session
