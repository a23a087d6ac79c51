import BoundTree.Proofs.Link
import BoundTree.Proofs.Portrait

/-!
Stores that come to be as they are described. A chart says of operations and slots which descriptions
they are of; a store fits it when every operation has the facts and slots described of it, and every
slot holds what is described of it or has a producer that will make it. Main statements: each thing that
is built, and each value that is published, keeps to the chart.
-/
namespace BoundTree

open Session

theorem Node.Le.nodeText {a b : Node} (h : a.Le b) : Session.nodeText b = Session.nodeText a := by
  simp only [Session.nodeText, h.header, h.payload, h.kind]

/-- An operation has the facts that are described of it. -/
structure Description.Describes (d : Description) (names : NameTable) (node : Node) : Prop where
  header : node.header = d.header
  payload : d.payload? = some node.payload.blank
  /-- The names in it have got their numbers. -/
  text : ∀ later, names.Le later → nodeText node = d.text later

namespace Description

theorem payload?_eq_some {d : Description} {p : Payload} (h : d.payload? = some p) :
    p.shape = d.shape ∧ p.tag = d.tag := by
  obtain ⟨hshape, htag, -⟩ := Payload.make?_eq_some h
  exact ⟨hshape, htag⟩

namespace Describes

variable {d : Description} {names : NameTable} {node : Node}

theorem kind (h : d.Describes names node) : node.kind = d.kind := by
  obtain ⟨hshape, htag⟩ := payload?_eq_some h.payload
  have hblank : node.payload.blank.shape.kindOf node.payload.blank.tag = d.shape.kindOf d.tag := by
    rw [hshape, htag]
  exact hblank

theorem shape (h : d.Describes names node) : node.shape = d.shape := (payload?_eq_some h.payload).1

theorem order (h : d.Describes names node) : node.payload.evaluationOrder = d.order := by
  simp [Description.order, h.payload]

/-- The slots of the operation are those described, of the same linkages. -/
theorem linkedCells (h : d.Describes names node) {f : CellId → Option (List Description)}
    (hcells : node.cells.map f = d.slots.map some) :
    node.linkedCells.map (fun x => (x.1, f x.2)) =
      (d.shape.slots.zip d.slots).map fun x => (x.1.linkage, some x.2) := by
  have hzip : node.linkedCells.map (Prod.map id f) =
      (d.shape.slots.zip d.slots).map (Prod.map (·.linkage) some) := by
    rw [Node.linkedCells, ← List.zip_map_right, hcells, h.shape, List.zip_map]
  exact hzip

/-- What is in a slot with children is among the children. -/
theorem subset_attached (h : d.Describes names node) {f : CellId → Option (List Description)}
    (hcells : node.cells.map f = d.slots.map some) {c : CellId} {ds : List Description}
    (hc : (.attached, c) ∈ node.linkedCells) (hds : f c = some ds) : ds ⊆ d.attached := by
  have hmem : (Linkage.attached, f c) ∈ node.linkedCells.map fun x => (x.1, f x.2) :=
    List.mem_map.mpr ⟨_, hc, rfl⟩
  rw [h.linkedCells hcells, hds] at hmem
  obtain ⟨⟨field, ds'⟩, hx, he⟩ := List.mem_map.mp hmem
  obtain ⟨hl, hd⟩ := Prod.mk.inj he
  cases hd
  intro e he
  refine List.mem_flatMap.mpr ⟨_, hx, ?_⟩
  rw [if_pos hl]
  exact he

theorem later {names' : NameTable} {node' : Node} (h : d.Describes names node)
    (hnames : names.Le names') (hnode : node.Le node') : d.Describes names' node' := by
  refine ⟨hnode.header.trans h.header, by rw [hnode.payload, h.payload], ?_⟩
  intro later hle
  rw [← h.text later (hnames.trans hle)]
  exact hnode.nodeText

end Describes
end Description

/-- What operations and slots are to be. -/
structure Chart where
  node : NodeId → Option Description
  /-- What is to be in a slot. -/
  cell : CellId → Option (List Description)
  /-- The slot that an operation is in. -/
  place : NodeId → Option CellId
  /-- The slot whose producer is running. -/
  running : Option CellId

namespace Chart

variable {m m' : Chart} {s t : Session}

/-- A slot holds what is to be in it. -/
def Filled (m : Chart) (s : Session) (c : CellId) (ds : List Description) : Prop :=
  ∃ ops, s.store.published? c = some ops ∧ ops.map m.node = ds.map some ∧ ops.Nodup ∧
    ∀ n ∈ ops, m.place n = some c

/-- A slot has a producer that will make what is to be in it. -/
def Waiting (m : Chart) (s : Session) (c : CellId) (ds : List Description) : Prop :=
  ∃ p runs, s.store.content? c = some (.deferred p runs [] none) ∧ p.isClosed ∧ p.described = ds ∧
    (m.running ≠ some c → runs = 0)

/-- Everything is as the chart says, or will be. -/
structure Fits (m : Chart) (s : Session) : Prop where
  node : ∀ {n d}, m.node n = some d → ∃ node, s.store.node? n = some node ∧
    d.Describes s.names node ∧ node.cells.map m.cell = d.slots.map some ∧ node.cells.Nodup ∧
    ∀ x ∈ node.linkedCells, s.store.owner? x.2 = some ⟨n, x.1⟩
  cell : ∀ {c ds}, m.cell c = some ds → m.Filled s c ds ∨ m.Waiting s c ds
  owner : ∀ {c ds o}, m.cell c = some ds → s.store.owner? c = some o →
    ∃ d, m.node o.node = some d ∧ (o.linkage = .attached → ds ⊆ d.attached)
  place : ∀ {n c}, m.place n = some c → (m.cell c).isSome ∧
    ∃ ops, s.store.published? c = some ops ∧ n ∈ ops
  link : ∀ {n d}, m.node n = some d → s.store.link? n = (m.place n).bind s.store.adopter?

/-- All that is described can be built. -/
structure Valid (m : Chart) (verifies : Bool) : Prop where
  node : ∀ {n d}, m.node n = some d → d.Valid verifies
  cell : ∀ {c ds}, m.cell c = some ds → ∀ d ∈ ds, d.Valid verifies

/-- A later chart of a later session, in which nothing that was on the chart is put elsewhere. -/
structure Grows (m : Chart) (s : Session) (m' : Chart) (t : Session) : Prop where
  node : ∀ {n d}, m.node n = some d → m'.node n = some d
  cell : ∀ {c ds}, m.cell c = some ds → m'.cell c = some ds
  place : ∀ {n d}, m.node n = some d → m'.place n = m.place n
  running : m'.running = m.running
  owner : ∀ {c ds}, m.cell c = some ds → t.store.owner? c = s.store.owner? c
  published : ∀ {c ds ops}, m.cell c = some ds → s.store.published? c = some ops →
    t.store.published? c = some ops
  names : s.names.Le t.names
  verifies : t.verifies = s.verifies

/-- What is not on the later chart is not on the earlier one. -/
theorem Grows.node_eq_none (h : m.Grows s m' t) {n : NodeId} (hn : m'.node n = none) :
    m.node n = none := by
  refine Option.eq_none_iff_forall_ne_some.mpr fun d hd => ?_
  rw [h.node hd] at hn
  cases hn

theorem Grows.cell_eq_none (h : m.Grows s m' t) {c : CellId} (hc : m'.cell c = none) :
    m.cell c = none := by
  refine Option.eq_none_iff_forall_ne_some.mpr fun ds hds => ?_
  rw [h.cell hds] at hc
  cases hc

theorem Grows.refl (m : Chart) (s : Session) : m.Grows s m s :=
  ⟨id, id, fun _ => rfl, rfl, fun _ => rfl, fun _ => id, .refl _, rfl⟩

theorem Grows.trans {m'' : Chart} {u : Session} (h : m.Grows s m' t) (k : m'.Grows t m'' u) :
    m.Grows s m'' u where
  node hn := k.node (h.node hn)
  cell hc := k.cell (h.cell hc)
  place hn := (k.place (h.node hn)).trans (h.place hn)
  running := k.running.trans h.running
  owner hc := (k.owner (h.cell hc)).trans (h.owner hc)
  published hc ho := k.published (h.cell hc) (h.published hc ho)
  names := h.names.trans k.names
  verifies := k.verifies.trans h.verifies

/-- Each of some things has the description at its place. -/
theorem exists_of_map_eq {α β : Type} {f : α → Option β} {xs : List α} {ys : List β}
    (h : xs.map f = ys.map some) {x : α} (hx : x ∈ xs) : ∃ y ∈ ys, f x = some y := by
  have hmem : f x ∈ ys.map some := h ▸ List.mem_map_of_mem hx
  obtain ⟨y, hy, he⟩ := List.mem_map.mp hmem
  exact ⟨y, hy, he.symm⟩

theorem isSome_of_map_eq {α β : Type} {f : α → Option β} {xs : List α} {ys : List β}
    (h : xs.map f = ys.map some) {x : α} (hx : x ∈ xs) : (f x).isSome := by
  obtain ⟨y, -, hy⟩ := exists_of_map_eq h hx
  rw [hy]
  rfl

theorem map_eq_of_le {α β : Type} {f g : α → Option β} {xs : List α} {ys : List β}
    (h : xs.map f = ys.map some) (hg : ∀ {x y}, f x = some y → g x = some y) :
    xs.map g = ys.map some := by
  rw [← h]
  refine List.map_congr_left fun x hx => ?_
  obtain ⟨y, -, hy⟩ := exists_of_map_eq h hx
  rw [hy, hg hy]

namespace Fits

theorem lt_node (h : m.Fits s) {n : NodeId} {d : Description} (hn : m.node n = some d) :
    n < s.store.nodes.size := by
  obtain ⟨node, hnode, -⟩ := h.node hn
  exact Store.node?_lt hnode

theorem cell?_isSome (h : m.Fits s) {c : CellId} {ds : List Description} (hc : m.cell c = some ds) :
    (s.store.cell? c).isSome := by
  rcases h.cell hc with ⟨ops, ho, -⟩ | ⟨p, runs, hp, -⟩
  · obtain ⟨cell, hcell, -⟩ := Option.bind_eq_some_iff.mp ho
    simp [hcell]
  · obtain ⟨cell, hcell, -⟩ := Option.map_eq_some_iff.mp hp
    simp [hcell]

theorem lt_cell (h : m.Fits s) {c : CellId} {ds : List Description} (hc : m.cell c = some ds) :
    c < s.store.cells.size := by
  obtain ⟨cell, hcell⟩ := Option.isSome_iff_exists.mp (h.cell?_isSome hc)
  exact Store.cell?_lt hcell

/-- What is not there yet is not on the chart. -/
theorem node_size (h : m.Fits s) : m.node s.store.nodes.size = none :=
  Option.eq_none_iff_forall_ne_some.mpr fun _ hd => (h.lt_node hd).false

theorem cell_size (h : m.Fits s) : m.cell s.store.cells.size = none :=
  Option.eq_none_iff_forall_ne_some.mpr fun _ hd => (h.lt_cell hd).false

/-- Labels, counters, what is in use and further names matter to no chart. -/
theorem of_store_eq (h : m.Fits s) (hstore : t.store = s.store) (hnames : s.names.Le t.names) :
    m.Fits t where
  node hn := by
    obtain ⟨node, hnode, hd, hrest⟩ := h.node hn
    exact ⟨node, by rw [hstore, hnode], hd.later hnames (.refl node), by rwa [hstore]⟩
  cell hc := by
    unfold Filled Waiting
    rw [hstore]
    exact h.cell hc
  owner := by
    rw [hstore]
    exact h.owner
  place := by
    rw [hstore]
    exact h.place
  link := by
    rw [hstore]
    exact h.link

/-- A parent has the child among those described. -/
theorem parent (h : m.Fits s) {n p : NodeId} {d : Description} (hn : m.node n = some d)
    (hp : s.store.link? n = some p) : ∃ e, m.node p = some e ∧ d ∈ e.attached := by
  rw [h.link hn] at hp
  obtain ⟨c, hc, hadopter⟩ := Option.bind_eq_some_iff.mp hp
  obtain ⟨o, ho, hattached⟩ := Option.bind_eq_some_iff.mp hadopter
  obtain ⟨hsome, ops, hops, hmem⟩ := h.place hc
  obtain ⟨ds, hds⟩ := Option.isSome_iff_exists.mp hsome
  split at hattached
  · next hl =>
    cases hattached
    obtain ⟨e, he, hsub⟩ := h.owner hds ho
    refine ⟨e, he, hsub hl ?_⟩
    rcases h.cell hds with ⟨ops', hops', hnodes, -⟩ | ⟨p, runs, hcontent, -⟩
    · cases hops.symm.trans hops'
      obtain ⟨d', hd', heq⟩ := exists_of_map_eq hnodes hmem
      cases hn.symm.trans heq
      exact hd'
    · rw [Store.published?_eq_content?, hcontent] at hops
      cases hops
  · cases hattached

end Fits

/-! New slots. -/

def addCell (m : Chart) (c : CellId) (ds : List Description) : Chart :=
  { m with cell := fun k => if k = c then some ds else m.cell k }

/-- Operations are put in a slot. -/
def put (m : Chart) (c : CellId) (ops : List NodeId) : Chart :=
  { m with place := fun n => if n ∈ ops then some c else m.place n }

end Chart

namespace Chart

variable {m : Chart} {s : Session}

theorem Filled.later {t : Session} {m' : Chart} {c : CellId} {ds : List Description}
    (h : m.Filled s c ds) (hpublished : t.store.published? c = s.store.published? c)
    (hnode : ∀ {n d}, m.node n = some d → m'.node n = some d)
    (hplace : ∀ {n d}, m.node n = some d → m.place n = some c → m'.place n = some c) :
    m'.Filled t c ds := by
  obtain ⟨ops, ho, hnodes, hnodup, hp⟩ := h
  refine ⟨ops, hpublished.trans ho, map_eq_of_le hnodes hnode, hnodup, fun n hn => ?_⟩
  obtain ⟨d, -, hd⟩ := exists_of_map_eq hnodes hn
  exact hplace hd (hp n hn)

/-- Only operations that are in no slot are put in one, and the others stay where they are. -/
theorem place_put {c k : CellId} {ops : List NodeId} {n : NodeId} (hplace : ∀ n ∈ ops, m.place n = none)
    (hn : m.place n = some k) : (m.put c ops).place n = some k := by
  have hold : n ∉ ops := fun hin => by
    rw [hplace n hin] at hn
    cases hn
  exact (if_neg hold).trans hn

/-- The session with a new slot. -/
def withCell (s : Session) (arity : Arity) (content : Content) : Session :=
  { s with store := (s.store.addCell ⟨arity, content, none⟩).2 }

theorem Fits.addCell (h : m.Fits s) (arity : Arity) {content : Content} {ops : List NodeId}
    {ds : List Description} (hplace : ∀ n ∈ ops, m.place n = none)
    (hpublished : ∀ n ∈ ops, content.published? = some ops)
    (hnew : ((m.addCell s.store.cells.size ds).put s.store.cells.size ops).Filled
        (withCell s arity content) s.store.cells.size ds ∨
      ((m.addCell s.store.cells.size ds).put s.store.cells.size ops).Waiting
        (withCell s arity content) s.store.cells.size ds) :
    ((m.addCell s.store.cells.size ds).put s.store.cells.size ops).Fits (withCell s arity content) := by
  have hcell : ∀ {k ds'}, m.cell k = some ds' →
      ((m.addCell s.store.cells.size ds).put s.store.cells.size ops).cell k = some ds' := by
    intro k ds' hk
    exact (if_neg (h.lt_cell hk).ne).trans hk
  have howner : ∀ k, (withCell s arity content).store.owner? k = s.store.owner? k :=
    s.store.owner?_addCell arity content
  have hadopter := Store.adopter?_congr howner
  have hnone : s.store.adopter? s.store.cells.size = none := by
    simp [Store.adopter?, Store.owner?, Store.cell?]
  have hcontent : ∀ {k ds'}, m.cell k = some ds' →
      (withCell s arity content).store.content? k = s.store.content? k := by
    intro k ds' hk
    exact (s.store.content?_addCell _ k).trans (if_neg (h.lt_cell hk).ne)
  have hpub : ∀ {k ds'}, m.cell k = some ds' →
      (withCell s arity content).store.published? k = s.store.published? k := by
    intro k ds' hk
    rw [Store.published?_eq_content?, Store.published?_eq_content?, hcontent hk]
  constructor
  · intro n d hn
    obtain ⟨node, hnode, hd, hcells, hnodup, howners⟩ := h.node hn
    exact ⟨node, hnode, hd, map_eq_of_le hcells hcell, hnodup,
      fun x hx => (howner _).trans (howners x hx)⟩
  · intro k ds' hk
    by_cases hkc : k = s.store.cells.size
    · subst hkc
      obtain rfl : ds = ds' := Option.some.inj ((if_pos rfl).symm.trans hk)
      exact hnew
    · have hk' : m.cell k = some ds' := (if_neg hkc).symm.trans hk
      rcases h.cell hk' with hfilled | ⟨p, runs, hc, hrest⟩
      · exact .inl (hfilled.later (hpub hk') id fun _ hn => place_put hplace hn)
      · exact .inr ⟨p, runs, (hcontent hk').trans hc, hrest⟩
  · intro k ds' o hk ho
    rw [howner] at ho
    have hne : k ≠ s.store.cells.size := by
      rintro rfl
      simp [Store.owner?, Store.cell?] at ho
    exact h.owner ((if_neg hne).symm.trans hk) ho
  · intro n k hn
    by_cases hmem : n ∈ ops
    · obtain rfl : s.store.cells.size = k := Option.some.inj ((if_pos hmem).symm.trans hn)
      refine ⟨by simp [put, Chart.addCell], ops, ?_, hmem⟩
      exact ((s.store.published?_addCell _ _).trans (if_pos rfl)).trans (hpublished n hmem)
    · obtain ⟨hsome, ops', ho, hin⟩ := h.place ((if_neg hmem).symm.trans hn)
      obtain ⟨ds', hds⟩ := Option.isSome_iff_exists.mp hsome
      exact ⟨by rw [hcell hds]; rfl, ops', (hpub hds).trans ho, hin⟩
  · intro n d hn
    have hlink : s.store.link? n = (m.place n).bind s.store.adopter? := h.link hn
    rw [hadopter]
    refine hlink.trans ?_
    by_cases hmem : n ∈ ops
    · have hput : ((m.addCell s.store.cells.size ds).put s.store.cells.size ops).place n =
          some s.store.cells.size := if_pos hmem
      rw [hput, hplace n hmem, Option.bind_some, hnone, Option.bind_none]
    · have hput : ((m.addCell s.store.cells.size ds).put s.store.cells.size ops).place n =
          m.place n := if_neg hmem
      rw [hput]

theorem Fits.addDeferred (h : m.Fits s) (arity : Arity) {p : Producer} (hp : p.isClosed) :
    ((m.addCell s.store.cells.size p.described).put s.store.cells.size []).Fits
      (withCell s arity (.deferred p 0 [] none)) := by
  have hcontent : (withCell s arity (.deferred p 0 [] none)).store.content? s.store.cells.size =
      some (.deferred p 0 [] none) := (s.store.content?_addCell _ _).trans (if_pos rfl)
  exact h.addCell arity (by simp) (by simp) (.inr ⟨p, 0, hcontent, hp, rfl, fun _ => rfl⟩)

theorem Fits.addFilled (h : m.Fits s) (arity : Arity) {ops : List NodeId} {ds : List Description}
    (hops : ops.map m.node = ds.map some) (hn : ops.Nodup) (hplace : ∀ n ∈ ops, m.place n = none) :
    ((m.addCell s.store.cells.size ds).put s.store.cells.size ops).Fits
      (withCell s arity (.filled ops)) := by
  have hpub : (withCell s arity (.filled ops)).store.published? s.store.cells.size = some ops :=
    (s.store.published?_addCell _ _).trans (if_pos rfl)
  exact h.addCell arity hplace (fun _ _ => rfl) (.inl ⟨ops, hpub, hops, hn, fun n hmem => if_pos hmem⟩)

/-! Runs of producers. -/

/-- The producer of a slot is running. -/
def run (m : Chart) (c : CellId) : Chart := { m with running := some c }

/-- A value has come. -/
def settle (m : Chart) (c : CellId) (ops : List NodeId) : Chart :=
  { m with place := fun n => if n ∈ ops then some c else m.place n, running := none }

theorem Fits.start (h : m.Fits s) (hr : m.running = none) (c : CellId) (p : Producer) :
    (m.run c).Fits (s.started c p) := by
  have hcount : ∀ k, (s.store.modifyContent c (·.countRun)).published? k = s.store.published? k :=
    s.store.published?_modifyContent_of Content.published?_countRun c
  have hadopter := Store.adopter?_congr (s.store.owner?_modifyContent c (·.countRun))
  constructor
  · intro n d hn
    obtain ⟨node, hnode, hd, hcells, hnodup, howners⟩ := h.node hn
    exact ⟨node, by simpa using hnode, by rwa [(s.started_names c p).1], hcells, hnodup,
      fun x hx => by simpa using howners x hx⟩
  · intro k ds hk
    rcases h.cell hk with ⟨ops, ho, hrest⟩ | ⟨q, runs, hc, hclosed, hds, hruns⟩
    · exact .inl ⟨ops, by rwa [started_store, hcount], hrest⟩
    · by_cases hkc : k = c
      · subst hkc
        refine .inr ⟨q, runs + 1, ?_, hclosed, hds, fun hne => (hne rfl).elim⟩
        rw [started_store, Store.content?_modifyContent, if_pos rfl, hc]
        rfl
      · refine .inr ⟨q, runs, ?_, hclosed, hds, fun _ => hruns (by simp [hr])⟩
        rw [started_store, Store.content?_modifyContent, if_neg hkc, hc]
  · intro k ds o hk ho
    exact h.owner hk (by simpa using ho)
  · intro n k hn
    rw [started_store, hcount]
    exact h.place hn
  · intro n d hn
    rw [started_store, hadopter]
    exact h.link hn

theorem settle_store {s : Session} {c : CellId} (hc : s.store.published? c = none) (run : Nat)
    (candidate : List NodeId) : (s.settle c run candidate).store =
      (s.store.receive c run candidate).modifyContent c (·.publish candidate) := by
  unfold Session.settle
  rw [hc]

/-- The first value that comes is published. -/
theorem published?_settle {s : Session} {c : CellId} (hc : (s.store.cell? c).isSome)
    (hnone : s.store.published? c = none) (run : Nat) (candidate : List NodeId) :
    (s.settle c run candidate).store.published? c = some candidate := by
  have hreceive : (s.store.receive c run candidate).published? c = none := by
    rw [Store.published?_eq_content?, Store.content?_receive, if_pos rfl]
    rw [Store.published?_eq_content?] at hnone
    cases ha : s.store.content? c with
    | none => rfl
    | some a => simpa [ha] using hnone
  obtain ⟨cell, hcell⟩ := Option.isSome_iff_exists.mp hc
  obtain ⟨cell', hcell', -⟩ := (s.store.le_receive c run candidate).cell hcell
  rw [settle_store hnone, Store.published?_publish, if_pos ⟨rfl, by simp [hcell']⟩, hreceive]
  rfl

theorem Fits.settle (h : m.Fits s) {c : CellId} {ds : List Description} (hc : m.cell c = some ds)
    (hr : m.running = some c) (hnone : s.store.published? c = none) (run : Nat)
    {candidate : List NodeId} (hops : candidate.map m.node = ds.map some) (hn : candidate.Nodup)
    (hplace : ∀ n ∈ candidate, m.place n = none) :
    (m.settle c candidate).Fits (s.settle c run candidate) := by
  have howner : ∀ k, (s.settle c run candidate).store.owner? k = s.store.owner? k := by
    intro k
    simp [settle_store hnone]
  have hadopter := Store.adopter?_congr howner
  have hpublished : (s.settle c run candidate).store.published? c = some candidate :=
    published?_settle (h.cell?_isSome hc) hnone run candidate
  have hcontent : ∀ {k}, k ≠ c →
      (s.settle c run candidate).store.content? k = s.store.content? k := by
    intro k hk
    rw [settle_store hnone, Store.content?_modifyContent, if_neg hk, Store.content?_receive, if_neg hk]
  have hpub : ∀ {k}, k ≠ c →
      (s.settle c run candidate).store.published? k = s.store.published? k := by
    intro k hk
    rw [Store.published?_eq_content?, Store.published?_eq_content?, hcontent hk]
  constructor
  · intro n d hd
    obtain ⟨node, hnode, hdesc, hcells, hnodup, howners⟩ := h.node hd
    obtain ⟨node', hnode', hle⟩ := (le_settle s c run candidate).node hnode
    have hlinked := hle.linkedCells
    refine ⟨node', hnode', ?_, by rwa [hle.cells], by rwa [hle.cells], ?_⟩
    · rw [(settle_names s c run candidate).1]
      exact hdesc.later (.refl _) hle
    · rw [hlinked]
      exact fun x hx => (howner _).trans (howners x hx)
  · intro k ds' hk
    by_cases hkc : k = c
    · subst hkc
      obtain rfl : ds = ds' := Option.some.inj (hc.symm.trans hk)
      exact .inl ⟨candidate, hpublished, hops, hn, fun n hmem => if_pos hmem⟩
    · rcases h.cell hk with hfilled | ⟨p, runs, hwait, hclosed, hds, hruns⟩
      · exact .inl (hfilled.later (hpub hkc) id fun _ hn => place_put hplace hn)
      · have hother : m.running ≠ some k := by
          rw [hr]
          exact fun he => hkc (Option.some.inj he).symm
        exact .inr ⟨p, runs, (hcontent hkc).trans hwait, hclosed, hds, fun _ => hruns hother⟩
  · intro k ds' o hk ho
    exact h.owner hk ((howner k).symm.trans ho)
  · intro n k hk
    by_cases hmem : n ∈ candidate
    · obtain rfl : c = k := Option.some.inj ((if_pos hmem).symm.trans hk)
      exact ⟨by simp [Chart.settle, hc], candidate, hpublished, hmem⟩
    · obtain ⟨hsome, ops, ho, hin⟩ := h.place ((if_neg hmem).symm.trans hk)
      have hkc : k ≠ c := by
        rintro rfl
        rw [hnone] at ho
        cases ho
      exact ⟨hsome, ops, (hpub hkc).trans ho, hin⟩
  · intro n d hd
    obtain ⟨node, hnode, -⟩ := h.node hd
    rw [hadopter, link?_settle, h.link hd]
    by_cases hmem : n ∈ candidate
    · have hput : (m.settle c candidate).place n = some c := if_pos hmem
      rw [if_pos ⟨hmem, by simp [hnode]⟩, hput, hplace n hmem]
      simp
    · have hput : (m.settle c candidate).place n = m.place n := if_neg hmem
      rw [if_neg fun h => hmem h.1, hput]

/-! New operations. -/

def addNode (m : Chart) (n : NodeId) (d : Description) : Chart :=
  { m with
    node := fun k => if k = n then some d else m.node k
    place := fun k => if k = n then none else m.place k }

/-- What is published of a slot is what is to be in it. -/
theorem Fits.filled (h : m.Fits s) {c : CellId} {ds : List Description} (hc : m.cell c = some ds)
    {ops : List NodeId} (ho : s.store.published? c = some ops) :
    ops.map m.node = ds.map some ∧ ops.Nodup ∧ ∀ n ∈ ops, m.place n = some c := by
  rcases h.cell hc with ⟨ops', ho', hrest⟩ | ⟨p, runs, hwait, -⟩
  · cases ho.symm.trans ho'
    exact hrest
  · rw [Store.published?_eq_content?, hwait] at ho
    cases ho

section NewOperation

variable {header : Header} {payload : Payload} {cells : List CellId} {d : Description}

/-- The slots of an operation that is not linked yet. -/
abbrev linked (header : Header) (payload : Payload) (cells : List CellId) : List (Linkage × CellId) :=
  (⟨header, payload, cells, none⟩ : Node).linkedCells

theorem mem_of_linked {x : Linkage × CellId} (hx : x ∈ linked header payload cells) : x.2 ∈ cells :=
  (Node.linkedCells_sublist _).subset (List.mem_map_of_mem hx)

theorem owner?_withOperation_of_notMem {c : CellId}
    (hc : c ∉ (linked header payload cells).map (·.2)) :
    (s.withOperation header payload cells).store.owner? c = s.store.owner? c :=
  Store.owner?_installAll_of_notMem hc

variable (h : m.Fits s) (hcells : cells.map m.cell = d.slots.map some)
include h hcells

/-- What is in a child slot of a new operation has its place there. -/
theorem Fits.place_of_held {k : NodeId} (hk : k ∈ (s.store.addNode ⟨header, payload, cells, none⟩).2.heldIn
      .attached (linked header payload cells)) :
    ∃ c, (.attached, c) ∈ linked header payload cells ∧ m.place k = some c ∧ ∃ e, m.node k = some e := by
  obtain ⟨c, ops, hc, ho, hin⟩ := Store.mem_heldIn.mp hk
  obtain ⟨ds, -, hds⟩ := exists_of_map_eq hcells (mem_of_linked hc)
  obtain ⟨hnodes, -, hplace⟩ := h.filled hds ho
  obtain ⟨e, -, he⟩ := exists_of_map_eq hnodes hin
  exact ⟨c, hc, hplace k hin, e, he⟩

theorem Fits.node?_withOperation : (s.withOperation header payload cells).store.node? s.store.nodes.size =
    some ⟨header, payload, cells, none⟩ := by
  have hnot : s.store.nodes.size ∉ (s.store.addNode ⟨header, payload, cells, none⟩).2.heldIn .attached
      (linked header payload cells) := by
    intro hin
    obtain ⟨-, -, -, e, he⟩ := h.place_of_held hcells hin
    exact (h.lt_node he).false
  have hstore : (s.withOperation header payload cells).store =
      (s.store.addNode ⟨header, payload, cells, none⟩).2.installAll s.store.nodes.size
        (linked header payload cells) := rfl
  rw [hstore, Store.node?_installAll, Store.node?_addNode, if_pos rfl]
  simp [hnot]

variable (hn : cells.Nodup) (howner : ∀ c ∈ cells, s.store.owner? c = none)
include hn howner

theorem Fits.owner?_withOperation {l : Linkage} {c : CellId} (hc : (l, c) ∈ linked header payload cells) :
    (s.withOperation header payload cells).store.owner? c = some ⟨s.store.nodes.size, l⟩ := by
  obtain ⟨ds, -, hds⟩ := exists_of_map_eq hcells (mem_of_linked hc)
  have hnodup : ((linked header payload cells).map (·.2)).Nodup := (Node.linkedCells_sublist _).nodup hn
  exact Store.owner?_installAll_of_mem hnodup hc (h.cell?_isSome hds) (howner c (mem_of_linked hc))

/-- What is on the chart is linked to the owner of the slot that it is in, which may be the new operation. -/
theorem Fits.link?_withOperation {k : NodeId} {e : Description} (hk : m.node k = some e) :
    (s.withOperation header payload cells).store.link? k =
      (m.place k).bind (s.withOperation header payload cells).store.adopter? := by
  let added := (s.store.addNode ⟨header, payload, cells, none⟩).2
  have hk₀ : k ≠ s.store.nodes.size := (h.lt_node hk).ne
  have hstore : (s.withOperation header payload cells).store =
      added.installAll s.store.nodes.size (linked header payload cells) := rfl
  have hadded : added.link? k = s.store.link? k := by
    simp only [Store.link?, added, Store.node?_addNode]
    rw [if_neg hk₀]
  have hsome : (added.node? k).isSome := by
    obtain ⟨old, hold, -⟩ := h.node hk
    simp only [added, Store.node?_addNode]
    rw [if_neg hk₀, hold]
    rfl
  have hnone : ∀ {c}, c ∈ (linked header payload cells).map (·.2) → s.store.adopter? c = none := by
    intro c hc
    obtain ⟨x, hx, rfl⟩ := List.mem_map.mp hc
    rw [Store.adopter?, howner _ (mem_of_linked hx), Option.bind_none]
  rw [hstore, Store.link?_installAll, hadded, h.link hk]
  by_cases hin : k ∈ added.heldIn .attached (linked header payload cells)
  · obtain ⟨c, hc, hkc, -⟩ := h.place_of_held hcells hin
    rw [if_pos ⟨hin, hsome⟩, hkc, Option.bind_some, hnone (List.mem_map_of_mem hc),
      Option.bind_some, ← hstore, Store.adopter?, h.owner?_withOperation hcells hn howner hc]
    rfl
  · rw [if_neg fun hc => hin hc.1]
    cases hkc : m.place k with
    | none => rfl
    | some c =>
      rw [Option.bind_some, Option.bind_some, ← hstore]
      by_cases hc : c ∈ (linked header payload cells).map (·.2)
      · obtain ⟨⟨l, c'⟩, hx, rfl⟩ := List.mem_map.mp hc
        rw [hnone hc, Store.adopter?, h.owner?_withOperation hcells hn howner hx]
        cases l with
        | attached =>
          obtain ⟨-, ops, ho, hmem⟩ := h.place hkc
          exact (hin (Store.mem_heldIn.mpr ⟨c', ops, hx, ho, hmem⟩)).elim
        | detached => rfl
      · rw [Store.adopter?, Store.adopter?, owner?_withOperation_of_notMem hc]

theorem Fits.addOperation (hd : d.Describes s.names ⟨header, payload, cells, none⟩) :
    (m.addNode s.store.nodes.size d).Fits (s.withOperation header payload cells) := by
  let n₀ := s.store.nodes.size
  have hgrows : s.store.Grows (s.withOperation header payload cells).store :=
    s.store.grows_addOperation header payload cells
  have hcontent : ∀ c, (s.withOperation header payload cells).store.content? c = s.store.content? c :=
    s.store.content?_addOperation header payload cells
  have hpublished : ∀ c, (s.withOperation header payload cells).store.published? c =
      s.store.published? c := s.store.published?_addOperation header payload cells
  have hnode : (s.withOperation header payload cells).store.node? n₀ =
      some ⟨header, payload, cells, none⟩ := h.node?_withOperation hcells
  have hne : ∀ {k e}, m.node k = some e → k ≠ n₀ := fun hk => (h.lt_node hk).ne
  have hold : ∀ {k e}, m.node k = some e → (m.addNode n₀ d).node k = some e := fun hk =>
    (if_neg (hne hk)).trans hk
  constructor
  · intro k e hk
    by_cases hk₀ : k = n₀
    · subst hk₀
      obtain rfl : d = e := Option.some.inj ((if_pos rfl).symm.trans hk)
      exact ⟨_, hnode, hd, hcells, hn, fun x hx => h.owner?_withOperation hcells hn howner hx⟩
    · have hk' : m.node k = some e := (if_neg hk₀).symm.trans hk
      obtain ⟨old, hnode, hdesc, hcells', hnodup', howners⟩ := h.node hk'
      obtain ⟨new, hnew, hle⟩ := hgrows.toLe.node hnode
      refine ⟨new, hnew, hdesc.later (.refl _) hle, by rwa [hle.cells], by rwa [hle.cells], ?_⟩
      rw [hle.linkedCells]
      intro x hx
      rw [owner?_withOperation_of_notMem ?_]
      · exact howners x hx
      · intro hin
        obtain ⟨y, hy, hyx⟩ := List.mem_map.mp hin
        have hnone := howner y.2 (mem_of_linked hy)
        rw [hyx, howners x hx] at hnone
        cases hnone
  · intro c ds hc
    rcases h.cell hc with hfilled | ⟨p, runs, hwait, hrest⟩
    · exact .inl (hfilled.later (hpublished c) hold fun he hk => (if_neg (hne he)).trans hk)
    · exact .inr ⟨p, runs, (hcontent c).trans hwait, hrest⟩
  · intro c ds o hc ho
    by_cases hin : c ∈ (linked header payload cells).map (·.2)
    · obtain ⟨⟨l, c'⟩, hx, rfl⟩ := List.mem_map.mp hin
      rw [h.owner?_withOperation hcells hn howner hx] at ho
      cases ho
      refine ⟨d, if_pos rfl, ?_⟩
      rintro rfl
      exact hd.subset_attached hcells hx hc
    · rw [owner?_withOperation_of_notMem hin] at ho
      obtain ⟨e, he, hsub⟩ := h.owner hc ho
      exact ⟨e, hold he, hsub⟩
  · intro k c hk
    have hk₀ : k ≠ n₀ := by
      rintro rfl
      cases (if_pos rfl).symm.trans hk
    obtain ⟨hsome, ops, ho, hin⟩ := h.place ((if_neg hk₀).symm.trans hk)
    exact ⟨hsome, ops, (hpublished c).trans ho, hin⟩
  · intro k e hk
    by_cases hk₀ : k = n₀
    · subst hk₀
      have hplace : (m.addNode s.store.nodes.size d).place s.store.nodes.size = none := if_pos rfl
      rw [hplace, Store.link?, hnode]
      rfl
    · have hplace : (m.addNode n₀ d).place k = m.place k := if_neg hk₀
      rw [hplace]
      exact h.link?_withOperation hcells hn howner ((if_neg hk₀).symm.trans hk)

end NewOperation

/-! Checks of links. -/

theorem Fits.linkFacts? (h : m.Fits s) {n : NodeId} {d : Description} (hn : m.node n = some d) :
    s.linkFacts? n = some d.facts := by
  obtain ⟨node, hnode, hd, -⟩ := h.node hn
  simp [Session.linkFacts?, hnode, Description.facts, hd.kind, hd.header]

/-- At a place in a slot nothing can be wrong but the models. -/
theorem Fits.checkLink_owned (h : m.Fits s) {c : CellId} {o : Owner} {ops : List NodeId} {n : NodeId}
    (hc : (m.cell c).isSome) (howner : s.store.owner? c = some o)
    (ho : s.store.published? c = some ops) (hn : n ∈ ops) :
    ∃ d e, m.node o.node = some d ∧ m.node n = some e ∧ (o.linkage = .attached → e ∈ d.attached) ∧
      s.checkLink o.node o.linkage n = if o.linkage = .attached then d.mismatch? e else none := by
  obtain ⟨ds, hds⟩ := Option.isSome_iff_exists.mp hc
  obtain ⟨d, hd, hsub⟩ := h.owner hds howner
  obtain ⟨hnodes, -, hplace⟩ := h.filled hds ho
  obtain ⟨e, hmem, he⟩ := exists_of_map_eq hnodes hn
  have hlink : s.store.link? n = if o.linkage = .attached then some o.node else none := by
    rw [h.link he, hplace n hn, Option.bind_some, Store.adopter?, howner, Option.bind_some]
  refine ⟨d, e, hd, he, fun hl => hsub hl hmem, ?_⟩
  have hparent : (s.store.node? n).bind (·.parent) =
      if o.linkage = .attached then some o.node else none := hlink
  unfold Session.checkLink
  rw [h.linkFacts? hd, h.linkFacts? he, hparent]
  cases o.linkage with
  | attached => simp [Description.mismatch?, Description.facts]
  | detached => simp

/-- The same of the slots of one operation. -/
theorem Fits.checkLink (h : m.Fits s) {p n : NodeId} {d : Description} {node : Node}
    (hp : m.node p = some d) (hnode : s.store.node? p = some node) {l : Linkage}
    (hn : n ∈ s.store.heldIn l node.linkedCells) :
    ∃ e, m.node n = some e ∧ (l = .attached → e ∈ d.attached) ∧
      s.checkLink p l n = if l = .attached then d.mismatch? e else none := by
  obtain ⟨node', hnode', hd, hcells, -, howners⟩ := h.node hp
  cases hnode.symm.trans hnode'
  obtain ⟨c, ops, hc, ho, hin⟩ := Store.mem_heldIn.mp hn
  obtain ⟨ds, -, hds⟩ := exists_of_map_eq hcells
    (node.linkedCells_sublist.subset (List.mem_map_of_mem hc))
  obtain ⟨d', e, hp', he, hmem, hcheck⟩ := h.checkLink_owned (by simp [hds]) (howners _ hc) ho hin
  cases hp.symm.trans hp'
  exact ⟨e, he, hmem, hcheck⟩

end Chart
end BoundTree
