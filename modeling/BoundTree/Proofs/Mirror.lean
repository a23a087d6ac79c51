import BoundTree.Proofs.Link
import BoundTree.Proofs.Portrait
import BoundTree.Proofs.Presence

/-!
Two sessions to which the same is added, from places of their own on. What is there already is left alone,
as long as nothing that has a name becomes a child or loses its name. Main statement: an operation that can
be added to the one session can be added to the other one, and then they are alike again.
-/
namespace BoundTree

/-- How something with a name is used where values are made. -/
inductive Use
  /-- The operation of the name is one of the values. -/
  | value (id : String)
  /-- A new operation takes the operation of the name as a child. -/
  | child (id : String)
  /-- A new operation holds it apart from its children. -/
  | lent (id : String)
  /-- An attribute of a new operation refers to it. -/
  | reference (id : String)
  /-- A new operation gets the name. -/
  | gives (id : String)
  /-- A new operation takes the slot of the name. -/
  | slot (name : String)
  deriving DecidableEq, Repr

namespace Use

def ofLinkage : Linkage → String → Use
  | .attached => .child
  | .detached => .lent

/-- The name of an operation that is there. -/
def id? : Use → Option String
  | .value id => some id
  | .child id => some id
  | .lent id => some id
  | .reference id => some id
  | .gives _ => none
  | .slot _ => none

/-- Nothing that has a name is changed for good, nor is a name. -/
def isPassive : Use → Bool
  | .value _ => true
  | .lent _ => true
  | .reference _ => true
  | .child _ => false
  | .gives _ => false
  | .slot _ => false

end Use

/-! What is evaluated at once: the values of producers are not. -/

mutual

def NodeExpr.uses (as : String → Use) : NodeExpr → List Use
  | .named id => [as id]
  | .build spec => spec.uses
  | .malformed => []

def NodeSpec.uses : NodeSpec → List Use
  | .mk id _ shape _ slots attributes =>
    (id.map .gives).toList ++ slotsUses (shape.slots.map (·.linkage)) slots ++ attributesUses attributes

def SlotExpr.uses (l : Linkage) : SlotExpr → List Use
  | .filled values => nodesUses (.ofLinkage l) values
  | .moved name => [.slot name]
  | .deferred _ => []
  | .malformed => []

def AttributeExpr.uses : AttributeExpr → List Use
  | .function e => e.uses .reference
  | .value _ => []
  | .symbol _ => []
  | .optionalSymbols _ => []
  | .malformed => []

def nodesUses (as : String → Use) : List NodeExpr → List Use
  | [] => []
  | e :: es => e.uses as ++ nodesUses as es

def slotsUses : List Linkage → List SlotExpr → List Use
  | l :: ls, e :: es => e.uses l ++ slotsUses ls es
  | [], _ => []
  | _ :: _, [] => []

def attributesUses : List AttributeExpr → List Use
  | [] => []
  | e :: es => e.uses ++ attributesUses es

end

/-- From these places on, operations have slots from these places on, and no slot there was read. -/
structure Store.Young (s : Store) (nodes cells : Nat) : Prop where
  slot : ∀ {n node}, s.node? n = some node → nodes ≤ n → ∀ c ∈ node.cells, cells ≤ c
  content : ∀ {c a}, s.content? c = some a → cells ≤ c → a.isDeferred → a.published? = none

namespace Session

open Procedure

/-- What was there is as it was, but for what has been added. -/
structure Spares (s t : Session) : Prop where
  grows : s.store.Grows t.store
  link : ∀ n < s.store.nodes.size, t.store.link? n = s.store.link? n
  young : t.store.Young s.store.nodes.size s.store.cells.size
  bindings : t.bindings = s.bindings
  slots : t.slots = s.slots
  verifies : t.verifies = s.verifies

theorem young_of_lt {s : Store} {nodes cells : Nat} (hnode : ∀ {n node}, s.node? n = some node → n < nodes)
    (hcontent : ∀ {c a}, s.content? c = some a → c < cells) : s.Young nodes cells :=
  ⟨fun hn hle => absurd (hnode hn) (Nat.not_lt.mpr hle),
    fun hc hle => absurd (hcontent hc) (Nat.not_lt.mpr hle)⟩

theorem young_self (s : Store) : s.Young s.nodes.size s.cells.size :=
  young_of_lt Store.node?_lt Store.content?_lt

theorem Spares.refl (s : Session) : s.Spares s :=
  ⟨.refl _, fun _ _ => rfl, young_self _, rfl, rfl, rfl⟩

theorem Spares.of_store {s t u : Session} (h : s.Spares t) (store : u.store = t.store)
    (bindings : u.bindings = t.bindings) (slots : u.slots = t.slots)
    (verifies : u.verifies = t.verifies) : s.Spares u := by
  refine ⟨?_, ?_, ?_, bindings.trans h.bindings, slots.trans h.slots, verifies.trans h.verifies⟩
  all_goals rw [store]
  · exact h.grows
  · exact h.link
  · exact h.young

theorem Spares.newCell {s t : Session} (h : s.Spares t) (arity : Arity) {content : Content}
    (hnew : content.isNew) (held : List Holder) :
    s.Spares { t with store := (t.store.addCell ⟨arity, content, none⟩).2, held } := by
  refine ⟨h.grows.trans (t.store.grows_addCell _), h.link, ⟨h.young.slot, ?_⟩, h.bindings, h.slots,
    h.verifies⟩
  intro c a hc hle hdeferred
  have hc : (t.store.addCell ⟨arity, content, none⟩).2.content? c = some a := hc
  rw [Store.content?_addCell] at hc
  split at hc
  · cases hc
    cases content with
    | filled ops => cases hdeferred
    | deferred p runs finished published =>
      have hpublished : runs = 0 ∧ finished = [] ∧ published = none := by simpa [Content.isNew] using hnew
      exact hpublished.2.2
  · exact h.young.content hc hle hdeferred

/-- A new operation that has new slots, and no children that were there before. -/
theorem Spares.withOperation {s t : Session} (h : s.Spares t) (header : Header) (payload : Payload)
    {cells : List CellId} (hcells : ∀ c ∈ cells, s.store.cells.size ≤ c)
    (hchildren : ∀ n ∈ t.store.heldIn .attached ((payload.shape.slots.map (·.linkage)).zip cells),
      s.store.nodes.size ≤ n) : s.Spares (t.withOperation header payload cells) := by
  let u := (t.store.addNode ⟨header, payload, cells, none⟩).2
  have hstore : (t.withOperation header payload cells).store =
      u.installAll t.store.nodes.size (Node.linkedCells ⟨header, payload, cells, none⟩) := rfl
  refine ⟨h.grows.trans (t.store.grows_addOperation _ _ _), fun n hn => ?_, ⟨?_, ?_⟩, h.bindings,
    h.slots, h.verifies⟩
  · have hlt : n < t.store.nodes.size := hn.trans_le h.grows.toLe.size_nodes
    have hnot : n ∉ u.heldIn .attached (Node.linkedCells ⟨header, payload, cells, none⟩) := fun hin =>
      absurd hn (Nat.not_lt.mpr (hchildren n hin))
    rw [hstore, Store.link?_installAll, if_neg fun hin => hnot hin.1, ← h.link n hn]
    simp only [Store.link?, u, Store.node?_addNode, if_neg hlt.ne]
  · intro n node' hn hle c hc
    obtain ⟨node, hnode, hl⟩ := Store.le_addOperation hn
    rw [hl.cells] at hc
    split at hnode
    · cases hnode
      exact hcells c hc
    · exact h.young.slot hnode hle c hc
  · intro c a hc
    exact h.young.content ((t.store.content?_addOperation _ _ _ c).symm.trans hc)

/-- The uses of names change nothing for good, and their operations are as they were. -/
structure Recurs (us : List Use) (s t : Session) : Prop where
  passive : ∀ use ∈ us, use.isPassive
  node : ∀ {n node}, s.store.node? n = some node → ∃ node', t.store.node? n = some node' ∧ node.Le node'
  verifies : t.verifies = s.verifies
  named : ∀ use ∈ us, ∀ id, use.id? = some id → t.node? id = s.node? id
  known : ∀ use ∈ us, ∀ id n, use.id? = some id → s.node? id = some n → n < s.store.nodes.size
  lent : ∀ id n, .lent id ∈ us → s.node? id = some n → t.store.link? n = s.store.link? n

theorem Recurs.size {us : List Use} {s t : Session} (h : Recurs us s t) :
    s.store.nodes.size ≤ t.store.nodes.size :=
  Store.size_nodes_le fun hn => by
    obtain ⟨node', hnode', -⟩ := h.node hn
    exact Option.isSome_of_mem hnode'

/-- What stands for an operation when the values are made again: itself, unless it was new. -/
def again (s t : Session) (n : Nat) : Nat :=
  if n < s.store.nodes.size then n else n - s.store.nodes.size + t.store.nodes.size

def againCell (s t : Session) (c : Nat) : Nat := c - s.store.cells.size + t.store.cells.size

theorem again_of_lt {s t : Session} {n : NodeId} (h : n < s.store.nodes.size) : s.again t n = n := if_pos h

theorem le_again {s t : Session} {n : NodeId} (h : s.store.nodes.size ≤ n) :
    t.store.nodes.size ≤ s.again t n := by
  rw [again, if_neg (Nat.not_lt.mpr h)]
  exact Nat.le_add_left _ _

theorem again_injective {s t : Session} (h : s.store.nodes.size ≤ t.store.nodes.size) :
    Function.Injective (s.again t) := by
  intro n m heq
  unfold again at heq
  split at heq <;> split at heq <;> omega

/-- The same operation, up to its place and that of its parent. -/
structure Twin (f : NodeId → NodeId) (x y : Node) : Prop where
  header : y.header = x.header
  kind : y.kind = x.kind
  parent : y.parent = x.parent.map f

/-- What was added to the one session was added to the other one too. -/
structure Mirrors (r u s t : Session) : Prop where
  left : r.Spares s
  right : u.Spares t
  nodes : s.store.nodes.size + u.store.nodes.size = t.store.nodes.size + r.store.nodes.size
  cells : s.store.cells.size + u.store.cells.size = t.store.cells.size + r.store.cells.size
  node : ∀ {n node}, s.store.node? n = some node → r.store.nodes.size ≤ n →
    ∃ node', t.store.node? (r.again u n) = some node' ∧ Twin (r.again u) node node'
  published : ∀ {c}, r.store.cells.size ≤ c →
    t.store.published? (r.againCell u c) = (s.store.published? c).map (·.map (r.again u))

theorem Mirrors.refl (r u : Session) : r.Mirrors u r u := by
  refine ⟨.refl r, .refl u, Nat.add_comm _ _, Nat.add_comm _ _, fun hn hle => ?_, fun {c} hle => ?_⟩
  · exact absurd (Store.node?_lt hn) (Nat.not_lt.mpr hle)
  · have hnone : ∀ {s : Store} {d : CellId}, s.cells.size ≤ d → s.published? d = none := by
      intro s d hd
      simp [Store.published?, Store.cell?, hd]
    have hagain : u.store.cells.size ≤ r.againCell u c := Nat.le_add_left _ _
    rw [hnone hle, hnone hagain]
    rfl

variable {us : List Use} {r u s t : Session}

theorem Mirrors.of_store {s' t' : Session} (h : r.Mirrors u s t) (hs : r.Spares s') (ht : u.Spares t')
    (store : s'.store = s.store) (store' : t'.store = t.store) : r.Mirrors u s' t' := by
  refine ⟨hs, ht, ?_, ?_, ?_, ?_⟩
  all_goals rw [store, store']
  · exact h.nodes
  · exact h.cells
  · exact h.node
  · exact h.published

theorem Mirrors.again_size (h : r.Mirrors u s t) :
    r.again u s.store.nodes.size = t.store.nodes.size := by
  have hnodes := h.nodes
  have hle := h.left.grows.toLe.size_nodes
  rw [again, if_neg (Nat.not_lt.mpr hle)]
  omega

theorem Mirrors.againCell_size (h : r.Mirrors u s t) :
    r.againCell u s.store.cells.size = t.store.cells.size := by
  have hcells := h.cells
  have hle := h.left.grows.toLe.size_cells
  unfold againCell
  omega

/-- What stands for an operation has its kind and its header, whether it is new or not. -/
theorem Mirrors.facts (hr : Recurs us r u) (h : r.Mirrors u s t) {n : NodeId} {node : Node}
    (hn : s.store.node? n = some node) : ∃ node', t.store.node? (r.again u n) = some node' ∧
      node'.header = node.header ∧ node'.kind = node.kind := by
  by_cases hlt : n < r.store.nodes.size
  · obtain ⟨x, hx⟩ := Option.isSome_iff_exists.mp (Store.node?_isSome hlt)
    obtain ⟨node₁, hnode₁, hle₁⟩ := h.left.grows.toLe.node hx
    obtain ⟨y, hy, hle₂⟩ := hr.node hx
    obtain ⟨node₂, hnode₂, hle₃⟩ := h.right.grows.toLe.node hy
    cases hn.symm.trans hnode₁
    rw [again_of_lt hlt]
    exact ⟨node₂, hnode₂, (hle₂.trans hle₃).header.trans hle₁.header.symm,
      (hle₂.trans hle₃).kind.trans hle₁.kind.symm⟩
  · obtain ⟨node', hnode', htwin⟩ := h.node hn (Nat.not_lt.mp hlt)
    exact ⟨node', hnode', htwin.header, htwin.kind⟩

theorem Mirrors.link? (h : r.Mirrors u s t) {n : NodeId} (hn : n < s.store.nodes.size)
    (hnew : r.store.nodes.size ≤ n) :
    t.store.link? (r.again u n) = (s.store.link? n).map (r.again u) := by
  obtain ⟨node, hnode⟩ := Option.isSome_iff_exists.mp (Store.node?_isSome hn)
  obtain ⟨node', hnode', htwin⟩ := h.node hnode hnew
  simp [Store.link?, hnode, hnode', htwin.parent]

theorem Mirrors.modelsAgree (hr : Recurs us r u) (h : r.Mirrors u s t) {p c : NodeId}
    (hp : p < s.store.nodes.size) (hc : c < s.store.nodes.size) (hagree : s.store.ModelsAgree p c) :
    t.store.ModelsAgree (r.again u p) (r.again u c) := by
  obtain ⟨parent, hparent⟩ := Option.isSome_iff_exists.mp (Store.node?_isSome hp)
  obtain ⟨child, hchild⟩ := Option.isSome_iff_exists.mp (Store.node?_isSome hc)
  obtain ⟨parent', hparent', hheader, hkind⟩ := h.facts hr hparent
  obtain ⟨child', hchild', hheader', hkind'⟩ := h.facts hr hchild
  intro x y hx hy
  cases hx.symm.trans hparent'
  cases hy.symm.trans hchild'
  rw [hheader, hkind, hheader', hkind']
  exact hagree parent child hparent hchild

/-- An operation that is there stands for itself, or is new. -/
structure Stands (us : List Use) (r : Session) (as : String → Use) (s : Store) (n : NodeId) : Prop where
  there : n < s.nodes.size
  origin : r.store.nodes.size ≤ n ∨ ∃ id, as id ∈ us ∧ r.node? id = some n

theorem Stands.mono {as : String → Use} {n : NodeId} {x y : Store} (h : Stands us r as x n)
    (hle : x.Le y) : Stands us r as y n := ⟨h.there.trans_le hle.size_nodes, h.origin⟩

/-- Nothing that was there before becomes a child of something new. -/
theorem Stands.new (hr : Recurs us r u) {n : NodeId} {x : Store}
    (h : Stands us r (.ofLinkage .attached) x n) : r.store.nodes.size ≤ n := by
  rcases h.origin with h | ⟨id, hid, -⟩
  · exact h
  · cases hr.passive _ hid

/-- New slots of these linkages, and the slots that stand for them. -/
structure Slots (us : List Use) (r u : Session) (ls : List Linkage) (cs ds : List CellId) (s : Store) :
    Prop where
  again : ds = cs.map (r.againCell u)
  new : ∀ c ∈ cs, r.store.cells.size ≤ c
  there : ∀ c ∈ cs, c < s.cells.size
  values : ∀ {l c ops}, (l, c) ∈ ls.zip cs → s.published? c = some ops →
    ∀ n ∈ ops, Stands us r (.ofLinkage l) s n

theorem Slots.nil (ls : List Linkage) (x : Store) : Slots us r u ls [] [] x :=
  ⟨rfl, fun _ h => absurd h List.not_mem_nil, fun _ h => absurd h List.not_mem_nil, by simp⟩

theorem Slots.mono {ls : List Linkage} {cs ds : List CellId} {x y : Store} (h : Slots us r u ls cs ds x)
    (hgrows : x.Grows y) : Slots us r u ls cs ds y := by
  refine ⟨h.again, h.new, fun c hc => (h.there c hc).trans_le hgrows.toLe.size_cells, ?_⟩
  intro l c ops hc ho n hn
  have hthere : (x.cell? c).isSome := by
    simp [Store.cell?, h.there c (List.of_mem_zip hc).2]
  rw [hgrows.published? hthere] at ho
  exact (h.values hc ho n hn).mono hgrows.toLe

theorem Slots.cons {l : Linkage} {ls : List Linkage} {c d : CellId} {cs ds : List CellId} {x : Store}
    (h : Slots us r u [l] [c] [d] x) (hs : Slots us r u ls cs ds x) :
    Slots us r u (l :: ls) (c :: cs) (d :: ds) x := by
  refine ⟨?_, ?_, ?_, ?_⟩
  · rw [List.map_cons, ← hs.again, (List.cons.inj h.again).1]
  · exact List.forall_mem_cons.mpr ⟨h.new c (List.mem_singleton.mpr rfl), hs.new⟩
  · exact List.forall_mem_cons.mpr ⟨h.there c (List.mem_singleton.mpr rfl), hs.there⟩
  · intro l' c' ops hc
    rw [List.zip_cons_cons] at hc
    rcases List.mem_cons.mp hc with heq | hc
    · exact h.values (by simpa using heq)
    · exact hs.values hc

/-- What the slots hold stands for what the others hold. -/
theorem Slots.mem_heldIn (h : r.Mirrors u s t) {ls : List Linkage} {cs ds : List CellId}
    (hs : Slots us r u ls cs ds s.store) {l : Linkage} {m : NodeId} :
    m ∈ t.store.heldIn l (ls.zip ds) ↔ ∃ n ∈ s.store.heldIn l (ls.zip cs), m = r.again u n := by
  simp only [Store.mem_heldIn, hs.again, List.zip_map_right, List.mem_map, Prod.exists, Prod.map_apply,
    id_eq, Prod.mk.injEq]
  constructor
  · rintro ⟨d, ops, ⟨l', c, hc, rfl, rfl⟩, ho, hm⟩
    rw [h.published (hs.new c (List.of_mem_zip hc).2)] at ho
    obtain ⟨ops', ho', rfl⟩ := Option.map_eq_some_iff.mp ho
    obtain ⟨n, hn, rfl⟩ := List.mem_map.mp hm
    exact ⟨n, ⟨c, ops', hc, ho', hn⟩, rfl⟩
  · rintro ⟨n, ⟨c, ops, hc, ho, hn⟩, rfl⟩
    refine ⟨_, ops.map (r.again u), ⟨l, c, hc, rfl, rfl⟩, ?_, List.mem_map_of_mem hn⟩
    rw [h.published (hs.new c (List.of_mem_zip hc).2), ho]
    rfl

theorem Slots.stands {ls : List Linkage} {cs ds : List CellId} {x : Store} (hs : Slots us r u ls cs ds x)
    {l : Linkage} {n : NodeId} (hn : n ∈ x.heldIn l (ls.zip cs)) : Stands us r (.ofLinkage l) x n := by
  obtain ⟨c, ops, hc, ho, hn⟩ := Store.mem_heldIn.mp hn
  exact hs.values hc ho n hn

theorem Twin.adopted {f : NodeId → NodeId} {x y : Node} (h : Twin f x y) (p : NodeId) :
    Twin f (x.adopted p) (y.adopted (f p)) := by
  refine ⟨h.header, h.kind, ?_⟩
  simp only [Node.adopted, h.parent]
  cases x.parent <;> rfl

/-- The same operation, built from slots that stand for each other. -/
theorem Mirrors.withOperation (hr : Recurs us r u) (h : r.Mirrors u s t) (header : Header)
    {p q : Payload} (hblank : q.blank = p.blank) {cs ds : List CellId}
    (hs : Slots us r u (p.shape.slots.map (·.linkage)) cs ds s.store) :
    r.Mirrors u (s.withOperation header p cs) (t.withOperation header q ds) := by
  have hshape : q.shape = p.shape := by rw [← q.shape_blank, hblank, p.shape_blank]
  have hkind : q.kind = p.kind := by rw [← q.kind_blank, hblank, p.kind_blank]
  have hnew : ∀ n ∈ s.store.heldIn .attached ((p.shape.slots.map (·.linkage)).zip cs),
      r.store.nodes.size ≤ n := fun n hn => (hs.stands hn).new hr
  refine ⟨h.left.withOperation header p hs.new hnew, ?_, ?_, ?_, ?_, ?_⟩
  · refine h.right.withOperation header q (fun d hd => ?_) fun m hm => ?_
    · rw [hs.again] at hd
      obtain ⟨c, -, rfl⟩ := List.mem_map.mp hd
      exact Nat.le_add_left _ _
    · rw [hshape, hs.mem_heldIn h] at hm
      obtain ⟨n, hn, rfl⟩ := hm
      exact le_again (hnew n hn)
  · have hnodes := h.nodes
    simp only [Session.withOperation, Store.size_addOperation]
    omega
  · simp only [Session.withOperation, Store.size_cells_addOperation]
    exact h.cells
  · intro n node' hn hle
    have hn : (s.store.addOperation header p cs).2.node? n = some node' := hn
    rw [Store.node?_addOperation] at hn
    obtain ⟨node, hnode, rfl⟩ := Option.map_eq_some_iff.mp hn
    have hlater : ∃ later, (if r.again u n = t.store.nodes.size then some ⟨header, q, ds, none⟩
        else t.store.node? (r.again u n)) = some later ∧ Twin (r.again u) node later := by
      rw [← h.again_size]
      by_cases heq : n = s.store.nodes.size
      · rw [if_pos heq] at hnode
        cases hnode
        exact ⟨_, if_pos (congrArg _ heq), rfl, hkind, rfl⟩
      · rw [if_neg heq] at hnode
        rw [if_neg fun h => heq (again_injective hr.size h)]
        exact h.node hnode hle
    obtain ⟨later, hlater, htwin⟩ := hlater
    have hmem : r.again u n ∈ t.store.heldIn .attached ((q.shape.slots.map (·.linkage)).zip ds) ↔
        n ∈ s.store.heldIn .attached ((p.shape.slots.map (·.linkage)).zip cs) := by
      rw [hshape, hs.mem_heldIn h]
      constructor
      · rintro ⟨m, hm, heq⟩
        rwa [again_injective hr.size heq]
      · exact fun hn => ⟨n, hn, rfl⟩
    have hadded := (t.store.node?_addOperation header q ds (r.again u n)).trans (by rw [hlater])
    refine ⟨_, hadded, ?_⟩
    dsimp only
    rw [← h.again_size]
    by_cases hin : n ∈ s.store.heldIn .attached ((p.shape.slots.map (·.linkage)).zip cs)
    · rw [if_pos hin, if_pos (hmem.mpr hin)]
      exact htwin.adopted _
    · rw [if_neg hin, if_neg fun h => hin (hmem.mp h)]
      exact htwin
  · intro c hc
    exact (t.store.published?_addOperation header q ds _).trans
      ((h.published hc).trans (by rw [← s.store.published?_addOperation header p cs c]; rfl))

/-- Where the check of a new operation finds nothing wrong, it finds nothing wrong with the one that
stands for it. -/
theorem Mirrors.constructionViolation? (hr : Recurs us r u) (h : r.Mirrors u s t) (header : Header)
    {p q : Payload} (hblank : q.blank = p.blank) {cs ds : List CellId}
    (hs : Slots us r u (p.shape.slots.map (·.linkage)) cs ds s.store)
    (hnone : s.constructionViolation? header p cs = none) :
    t.constructionViolation? header q ds = none := by
  have hshape : q.shape = p.shape := by rw [← q.shape_blank, hblank, p.shape_blank]
  have hverifies : t.verifies = s.verifies := by
    rw [h.right.verifies, hr.verifies, h.left.verifies]
  have hafter := h.withOperation hr header hblank hs
  have hsize := s.store.size_addOperation header p cs
  rw [constructionViolation?_eq_none] at hnone ⊢
  simp only [heldBy_withOperation] at hnone ⊢
  rw [hverifies, hshape]
  intro hv
  obtain ⟨hchildren, hvalues⟩ := hnone hv
  have hlater : ∀ {n}, n < s.store.nodes.size → n < (s.withOperation header p cs).store.nodes.size :=
    fun hn => (hn.trans (Nat.lt_succ_self _)).trans_eq hsize.symm
  constructor
  · intro m hm _
    obtain ⟨n, hn, rfl⟩ := (hs.mem_heldIn h).mp hm
    have hstands := hs.stands hn
    have hthere := hlater hstands.there
    obtain ⟨hlink, hmodels⟩ := hchildren n hn hstands.there.le
    have hnew : s.store.nodes.size < (s.withOperation header p cs).store.nodes.size :=
      (Nat.lt_succ_self _).trans_eq hsize.symm
    have hmodels' := hafter.modelsAgree hr hnew hthere hmodels
    rw [h.again_size] at hmodels'
    refine ⟨?_, hmodels'⟩
    rw [hafter.link? hthere (hstands.new hr), hlink, Option.map_some, h.again_size]
  · intro m hm
    obtain ⟨n, hn, rfl⟩ := (hs.mem_heldIn h).mp hm
    have hstands := hs.stands hn
    have hthere := hlater hstands.there
    rcases hstands.origin with hle | ⟨id, hid, hn'⟩
    · rw [hafter.link? hthere hle, hvalues n hn, Option.map_none]
    · -- what is only lent has the link that it had before anything was made
      have hlt := hr.known _ hid id n rfl hn'
      rw [again_of_lt hlt, hafter.right.link n (hlt.trans_le hr.size), hr.lent id n hid hn',
        ← hafter.left.link n hlt]
      exact hvalues n hn

end Session
end BoundTree
