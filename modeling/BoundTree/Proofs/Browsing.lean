import BoundTree.Proofs.Buildable
import BoundTree.Proofs.Termination

/-!
Reading what is as described. Main statement: a read of a slot that waits for its value builds what is
described of it, puts it in place, and leaves everything else where it was; no such read fails.
-/
namespace BoundTree

open Session

/-- The value of the first run is what is described. -/
theorem Producer.valueOf_one {p : Producer} (hp : p.isClosed) :
    nodesClosed (p.valueOf 1) ∧ nodesDescribed (p.valueOf 1) = p.described := by
  obtain ⟨counter, reenter, first, later⟩ := p
  rw [isClosed, Bool.and_eq_true] at hp
  have hvalue : (Producer.mk counter reenter first later).valueOf 1 = first := by simp [valueOf]
  rw [hvalue, described]
  exact ⟨hp.2, rfl⟩

/-- Nothing is read by a producer that reads nothing. -/
theorem Producer.reenter_eq_none {p : Producer} (hp : p.isClosed) : p.reenter = none := by
  obtain ⟨counter, reenter, first, later⟩ := p
  rw [isClosed, Bool.and_eq_true] at hp
  exact Option.isNone_iff_eq_none.mp hp.1

namespace Chart

variable {m m' : Chart} {s t : Session}

theorem Valid.settle {v : Bool} (h : m.Valid v) (c : CellId) (ops : List NodeId) :
    (m.settle c ops).Valid v := ⟨h.node, h.cell⟩

/-- A slot whose producer was run has its value; nothing else is changed. -/
theorem Grows.settle {c : CellId} {p : Producer} (h : (m.run c).Grows (s.started c p) m' t)
    (hr : m.running = none) {ops : List NodeId} (hops : ∀ n ∈ ops, m.node n = none)
    (hnone : t.store.published? c = none) (run : Nat) :
    m.Grows s (m'.settle c ops) (t.settle c run ops) where
  node hn := h.node hn
  cell hc := h.cell hc
  place {n d} hn := by
    have hnot : n ∉ ops := fun hin => by simp [hops n hin] at hn
    exact (if_neg hnot).trans (h.place hn)
  running := hr.symm
  owner {k ds} hk := by
    have howner := h.owner hk
    simpa [settle_store hnone] using howner
  published {k ds ks} hk ho := by
    have hstarted : (s.started c p).store.published? k = some ks := by
      rw [started_store, Store.published?_modifyContent_of Content.published?_countRun, ho]
    exact (le_settle t c run ops).published? (h.published hk hstarted)
  names := by
    rw [(settle_names t c run ops).1, ← (s.started_names c p).1]
    exact h.names
  verifies := by
    rw [(settle_names t c run ops).2.1, ← (s.started_names c p).2]
    exact h.verifies

/-- A value that is as described can be published. -/
theorem Fits.publicationViolation? {c : CellId} {run : Nat} {candidate : List NodeId}
    (h : (m.settle c candidate).Fits (s.settle c run candidate)) (hvalid : m.Valid s.verifies)
    (hc : (m.cell c).isSome) (hcell : (s.store.cell? c).isSome) (hnone : s.store.published? c = none) :
    s.publicationViolation? c run candidate = none := by
  unfold Session.publicationViolation?
  rw [hnone]
  cases ho : s.store.owner? c with
  | none => rfl
  | some o =>
    dsimp only
    split
    · next hv =>
      rw [List.findSome?_eq_none_iff]
      intro n hn
      have howner : (s.settle c run candidate).store.owner? c = some o := by
        simpa [settle_store hnone] using ho
      obtain ⟨d, e, hd, -, hmem, hcheck⟩ :=
        h.checkLink_owned hc howner (published?_settle hcell hnone run candidate) hn
      obtain ⟨-, -, -, hmodels, -, -⟩ := hvalid.node hd
      rw [hcheck]
      split
      · next hl => exact List.filterMap_eq_nil_iff.mp (hmodels hv) e (hmem hl)
      · rfl
    · rfl

end Chart

namespace Session

open Procedure Chart

variable {m : Chart} {s : Session}

/-- A producer that reads nothing builds its value. -/
theorem produce_closed {p : Producer} (hp : p.isClosed) (depth : Nat) :
    produce depth p 1 = mapFault producerFault (releasing (evalNodes (p.valueOf 1))) := by
  have hprepare : prepare (readCell depth) p 1 = pure () := by
    funext s
    simp [prepare, bind_apply, Producer.reenter_eq_none hp]
  rw [produce, hprepare]
  rfl

/-- Where a slot is as described, reading it gives what is described. -/
theorem yields_operations (h : m.Holds s) (hr : m.running = none) {c : CellId}
    {ds : List Description} (hc : m.cell c = some ds) :
    Yields (operations c) s m fun ops t m' => t.store.published? c = some ops ∧
      ops.map m'.node = ds.map some ∧ ops.Nodup ∧ ∀ n ∈ ops, m'.place n = some c := by
  rcases h.fits.cell hc with ⟨ops, ho, hfilled⟩ | ⟨p, runs, hcontent, hclosed, hds, hruns⟩
  · exact ⟨ops, s, m, operations_published ho, h, .refl m s, ho, hfilled⟩
  obtain rfl : runs = 0 := hruns (by simp [hr])
  obtain ⟨cell, hcell, hdeferred⟩ := Option.map_eq_some_iff.mp hcontent
  have hnone : s.store.published? c = none := by
    simp [Store.published?_eq_content?, hcontent, Content.published?]
  -- the producer builds its value
  have hstarted : (m.run c).Holds (s.started c p) := by
    refine ⟨h.fits.start hr c p, ?_⟩
    rw [(s.started_names c p).2]
    exact ⟨h.valid.node, h.valid.cell⟩
  have hvalue := Producer.valueOf_one hclosed
  have hvalid : ∀ d ∈ nodesDescribed (p.valueOf 1), d.Valid (s.started c p).verifies := by
    rw [hvalue.2, hds]
    exact hstarted.valid.cell hc
  obtain ⟨ops, u, m', hrun, hholds, hgrows, hbuilt⟩ :=
    (yields_evalNodes (p.valueOf 1) hvalue.1 hvalid hstarted).releasing fun hb => hb
  rw [hvalue.2, hds] at hbuilt
  have hproduce : produce s.store.budget p 1 (s.started c p) = (.ok ops, u) := by
    rw [produce_closed hclosed, mapFault_apply, hrun]
    rfl
  -- the slot still waits for it
  have hwaiting : u.store.content? c = some (.deferred p 1 [] none) := by
    have hadds := (Adding.releasing (adding_logic.evalNodes (p.valueOf 1))).reaches hrun
    exact (Additions.grows hadds).content? (content?_started hcontent)
  have hunone : u.store.published? c = none := by
    simp [Store.published?_eq_content?, hwaiting, Content.published?]
  obtain ⟨cell', hcell', -⟩ := Option.map_eq_some_iff.mp hwaiting
  -- and takes it
  have hfits := hholds.fits.settle (hgrows.cell hc) (hgrows.running) hunone 1 hbuilt.nodes
    hbuilt.nodup hbuilt.unplaced
  have hviolation := hfits.publicationViolation? hholds.valid (by simp [hgrows.cell hc])
    (by simp [hcell']) hunone
  have hpublished := published?_settle (by simp [hcell']) hunone 1 ops
  refine ⟨ops, u.settle c 1 ops, m'.settle c ops, ?_, ⟨hfits, ?_⟩,
    hgrows.settle hr hbuilt.fresh hunone 1, hpublished, hbuilt.nodes, hbuilt.nodup,
    fun n hn => if_pos hn⟩
  · rw [operations_unpublished hnone, readCell_deferred hcell hdeferred, bind_ok hproduce,
      offer_apply 1 ops hcell', hviolation, hunone]
    rfl
  · rw [(settle_names u c 1 ops).2.1]
    exact hholds.valid.settle c ops

/-! Child slots. -/

end Session

theorem Payload.nodup_evaluationOrder (p : Payload) : p.evaluationOrder.Nodup := by
  unfold evaluationOrder
  split
  · decide
  · exact List.nodup_range.filter _

/-- Only slots with children are evaluated. -/
theorem Payload.linkage_of_mem_evaluationOrder {p : Payload} {i : Nat} (h : i ∈ p.evaluationOrder) :
    p.shape.slots[i]?.map (·.linkage) = some .attached := by
  unfold evaluationOrder at h
  split at h
  · next hloop =>
    rw [hloop.1]
    simp only [List.mem_cons, List.not_mem_nil, or_false] at h
    rcases h with rfl | rfl | rfl <;> rfl
  · exact of_decide_eq_true (List.mem_filter.mp h).2

namespace Node

theorem mem_linkedCells_of_childCells {n : Node} {c : CellId} (h : c ∈ n.childCells) :
    (.attached, c) ∈ n.linkedCells := by
  obtain ⟨i, hi, hc⟩ := List.mem_filterMap.mp h
  have hl := Payload.linkage_of_mem_evaluationOrder hi
  refine List.mem_of_getElem? (i := i) ?_
  rw [linkedCells, List.getElem?_zip_eq_some, List.getElem?_map]
  exact ⟨hl, hc⟩

theorem nodup_childCells {n : Node} (h : n.cells.Nodup) : n.childCells.Nodup := by
  refine List.Nodup.filterMap ?_ n.payload.nodup_evaluationOrder
  intro i j c hi hj
  obtain ⟨hi, hci⟩ := List.getElem?_eq_some_iff.mp hi
  obtain ⟨hj, hcj⟩ := List.getElem?_eq_some_iff.mp hj
  exact (h.getElem_inj_iff).mp (hci.trans hcj.symm)

end Node

namespace Description.Describes

variable {d : Description} {names : NameTable} {node : Node}

theorem childCells (h : d.Describes names node) {f : CellId → Option (List Description)}
    (hcells : node.cells.map f = d.slots.map some) :
    node.childCells.map f = (d.order.filterMap (d.slots[·]?)).map some := by
  rw [Node.childCells, h.order, List.map_filterMap, List.map_filterMap]
  simp only [← List.getElem?_map, hcells]

theorem namedChildCells (h : d.Describes names node) {f : CellId → Option (List Description)}
    (hcells : node.cells.map f = d.slots.map some) :
    node.namedChildCells.map (fun x => (x.1, f x.2)) = d.namedSlots.map fun x => (x.1, some x.2) := by
  rw [Node.namedChildCells, Description.namedSlots, h.order, List.map_filterMap, List.map_filterMap,
    h.shape]
  refine List.filterMap_congr fun i _ => ?_
  have hi : node.cells[i]?.map f = d.slots[i]?.map some := by
    rw [← List.getElem?_map, hcells, List.getElem?_map]
  cases hf : d.shape.slots[i]? with
  | none => simp
  | some field =>
    cases hs : d.slots[i]? with
    | none =>
      rw [hs] at hi
      have hc : node.cells[i]? = none := by simpa using hi
      simp [hc]
    | some ds =>
      rw [hs] at hi
      obtain ⟨c, hc, hfc⟩ := Option.map_eq_some_iff.mp hi
      simp [hc, hfc]

end Description.Describes

namespace Chart

variable {m m' : Chart} {s t : Session}

/-- Operations that are in some slots, and as described. -/
structure Lists (m : Chart) (ds : List Description) (cells : List CellId) (ops : List NodeId) :
    Prop where
  nodes : ops.map m.node = ds.map some
  nodup : ops.Nodup
  placed : ∀ n ∈ ops, ∃ c ∈ cells, m.place n = some c

namespace Lists

variable {ds : List Description} {cells : List CellId} {ops : List NodeId}

theorem nil (m : Chart) (cells : List CellId) : m.Lists [] cells [] := ⟨rfl, .nil, by simp⟩

theorem take (h : m.Lists ds cells ops) (k : Nat) : m.Lists (ds.take k) cells (ops.take k) where
  nodes := by rw [List.map_take, List.map_take, h.nodes]
  nodup := h.nodup.sublist (List.take_sublist k ops)
  placed n hn := h.placed n (List.mem_of_mem_take hn)

theorem grows (h : m.Lists ds cells ops) (hgrows : m.Grows s m' t) : m'.Lists ds cells ops where
  nodes := map_eq_of_le h.nodes hgrows.node
  nodup := h.nodup
  placed n hn := by
    obtain ⟨d, -, hd⟩ := exists_of_map_eq h.nodes hn
    rw [hgrows.place hd]
    exact h.placed n hn

/-- No operation is in two slots. -/
theorem append {ds' : List Description} {c : CellId} {ops' : List NodeId} (h : m.Lists ds [c] ops)
    (k : m.Lists ds' cells ops') (hc : c ∉ cells) :
    m.Lists (ds ++ ds') (c :: cells) (ops ++ ops') where
  nodes := by rw [List.map_append, List.map_append, h.nodes, k.nodes]
  nodup := by
    refine h.nodup.append k.nodup fun n hn hn' => hc ?_
    obtain ⟨_, hmem, hplace⟩ := h.placed n hn
    obtain rfl := List.mem_singleton.mp hmem
    obtain ⟨c', hc', hplace'⟩ := k.placed n hn'
    cases hplace.symm.trans hplace'
    exact hc'
  placed n hn := by
    rcases List.mem_append.mp hn with hn | hn
    · obtain ⟨_, hmem, hplace⟩ := h.placed n hn
      obtain rfl := List.mem_singleton.mp hmem
      exact ⟨_, List.mem_cons_self, hplace⟩
    · obtain ⟨c', hc', hplace⟩ := k.placed n hn
      exact ⟨c', List.mem_cons_of_mem _ hc', hplace⟩

end Lists

/-- The child slots of an operation are its own, and as described. -/
theorem Fits.childCells (h : m.Fits s) {n : NodeId} {d : Description} (hn : m.node n = some d) :
    ∃ cells, Session.childCells n s = (.ok cells, s) ∧
      cells.map m.cell = (d.order.filterMap (d.slots[·]?)).map some ∧ cells.Nodup ∧
      ∀ c ∈ cells, s.store.adopter? c = some n := by
  obtain ⟨node, hnode, hd, hcells, hnodup, howners⟩ := h.node hn
  refine ⟨node.childCells, ?_, hd.childCells hcells, node.nodup_childCells hnodup, fun c hc => ?_⟩
  · have hrun : Session.childCells n s = (.ok ((s.store.node? n).elim [] (·.childCells)), s) := rfl
    rw [hrun, hnode]
    rfl
  · have howner := howners _ (node.mem_linkedCells_of_childCells hc)
    rw [Store.adopter?, howner]
    rfl

end Chart

namespace Session

open Procedure Chart

variable {m : Chart} {s : Session}

theorem yields_operations_lists (h : m.Holds s) (hr : m.running = none) {c : CellId}
    {ds : List Description} (hc : m.cell c = some ds) :
    Yields (operations c) s m fun ops _ m' => m'.Lists ds [c] ops :=
  (yields_operations h hr hc).mono fun _ _ ⟨_, hnodes, hnodup, hplace⟩ =>
    ⟨hnodes, hnodup, fun n hn => ⟨c, List.mem_singleton_self c, hplace n hn⟩⟩

/-- Slots are read in order, and no further than the limit asks. -/
theorem yields_gather {cells : List CellId} {dss : List (List Description)} (limit : Option Nat)
    (h : m.Holds s) (hr : m.running = none) (hcells : cells.map m.cell = dss.map some)
    (hnodup : cells.Nodup) :
    Yields (gather cells limit) s m fun ops _ m' =>
      m'.Lists (limit.elim dss.flatten dss.flatten.take) cells ops := by
  induction cells generalizing dss limit s m with
  | nil =>
    obtain rfl : dss = [] := by simpa using hcells.symm
    rcases limit with _ | _ | k
    · exact .pure h (.nil m [])
    · exact .pure h (.nil m [])
    · exact .pure h (.nil m [])
  | cons c cells ih =>
    cases dss with
    | nil => simp at hcells
    | cons ds dss =>
      obtain ⟨hc, hcells⟩ := List.cons.inj hcells
      obtain ⟨hnot, hnodup⟩ := List.nodup_cons.mp hnodup
      rcases limit with _ | _ | k
      · rw [gather]
        · refine (yields_operations_lists h hr hc).bind fun hholds hgrows hops => ?_
          refine (ih none hholds (hgrows.running.trans hr) (map_eq_of_le hcells hgrows.cell)
            hnodup).bind fun hholds' hgrows' hrest => .pure hholds' ?_
          exact (hops.grows hgrows').append hrest hnot
        · simp
      · exact .pure h ⟨by simp, .nil, by simp⟩
      · rw [gather]
        · refine (yields_operations_lists h hr hc).bind fun {ops _ _} hholds hgrows hops => ?_
          refine (ih (some (k + 1 - ops.length)) hholds (hgrows.running.trans hr)
            (map_eq_of_le hcells hgrows.cell) hnodup).bind fun hholds' hgrows' hrest =>
              .pure hholds' ?_
          have hlength : ops.length = ds.length := by simpa using congrArg List.length hops.nodes
          have hall := ((hops.grows hgrows').take (k + 1)).append hrest hnot
          rw [hlength] at hall
          simp only [Option.elim_some, List.flatten_cons, List.take_append] at hall ⊢
          exact hall
        · simp

/-- The children are those described, and linked to the operation. -/
theorem yields_children {n : NodeId} {d : Description} (limit : Option Nat) (h : m.Holds s)
    (hr : m.running = none) (hn : m.node n = some d) :
    Yields (children n limit) s m fun ops t m' =>
      ops.map m'.node = (limit.elim d.children d.children.take).map some ∧ ops.Nodup ∧
        ∀ k ∈ ops, t.store.link? k = some n := by
  obtain ⟨cells, hrun, hcells, hnodup, hadopter⟩ := h.fits.childCells hn
  refine .skip h hrun rfl (.refl _) rfl fun h' => ?_
  refine (yields_gather limit h' hr hcells hnodup).mono fun hholds hgrows hops =>
    ⟨hops.nodes, hops.nodup, fun k hk => ?_⟩
  obtain ⟨e, -, he⟩ := exists_of_map_eq hops.nodes hk
  obtain ⟨c, hc, hplace⟩ := hops.placed k hk
  obtain ⟨ds, -, hds⟩ := exists_of_map_eq hcells hc
  rw [hholds.fits.link he, hplace, Option.bind_some, Store.adopter?, hgrows.owner hds]
  exact hadopter c hc

/-- Slots that something is known of besides what is to be in them. -/
theorem exists_cell {α γ : Type} {f : γ → α} {g : γ → List Description} {cells : List (α × CellId)}
    {slots : List γ} (h : cells.map (fun x => (x.1, m.cell x.2)) = slots.map fun z => (f z, some (g z)))
    {x : α × CellId} (hx : x ∈ cells) : ∃ ds, m.cell x.2 = some ds := by
  have hmem : (x.1, m.cell x.2) ∈ slots.map fun z => (f z, some (g z)) :=
    h ▸ List.mem_map.mpr ⟨x, hx, rfl⟩
  obtain ⟨z, -, hz⟩ := List.mem_map.mp hmem
  exact ⟨g z, (Prod.mk.inj hz).2.symm⟩

theorem map_cell_later {m' : Chart} {t : Session} {α γ : Type} {f : γ → α} {g : γ → List Description}
    {cells : List (α × CellId)} {slots : List γ}
    (h : cells.map (fun x => (x.1, m.cell x.2)) = slots.map fun z => (f z, some (g z)))
    (hgrows : m.Grows s m' t) :
    cells.map (fun x => (x.1, m'.cell x.2)) = slots.map fun z => (f z, some (g z)) := by
  rw [← h]
  refine List.map_congr_left fun x hx => ?_
  obtain ⟨ds, hds⟩ := exists_cell h hx
  rw [hds, hgrows.cell hds]

/-- The slots that are shown have the names that are described, and hold what is described. -/
theorem yields_viewSlots {cells : List (String × CellId)} {slots : List (String × List Description)}
    (h : m.Holds s) (hr : m.running = none)
    (hcells : cells.map (fun x => (x.1, m.cell x.2)) = slots.map fun x => (x.1, some x.2)) :
    Yields (viewSlots cells) s m fun views _ m' =>
      views.map (fun v => (v.name, v.ops.map m'.node)) = slots.map fun x => (x.1, x.2.map some) := by
  induction cells generalizing slots s m with
  | nil =>
    obtain rfl : slots = [] := by simpa using hcells.symm
    exact .pure h rfl
  | cons x cells ih =>
    obtain ⟨name, c⟩ := x
    cases slots with
    | nil => simp at hcells
    | cons slot slots =>
      obtain ⟨hhead, hrest⟩ := List.cons.inj hcells
      obtain ⟨rfl, hc⟩ := Prod.mk.inj hhead
      refine (yields_operations h hr hc).bind fun hholds hgrows hops => ?_
      refine (ih hholds (hgrows.running.trans hr) (map_cell_later hrest hgrows)).bind
        fun hholds' hgrows' hviews => .pure hholds' ?_
      rw [List.map_cons, List.map_cons, hviews, map_eq_of_le hops.2.1 hgrows'.node]

/-- The child slots of an operation with their names. -/
theorem namedChildCells_ok (h : m.Fits s) {n : NodeId} {d : Description} (hn : m.node n = some d) :
    ∃ cells, namedChildCells n s = (.ok cells, s) ∧
      cells.map (fun x => (x.1, m.cell x.2)) = d.namedSlots.map fun x => (x.1, some x.2) := by
  obtain ⟨node, hnode, hd, hcells, -⟩ := h.node hn
  have hrun : namedChildCells n s =
      (.ok ((s.store.node? n).elim [] (·.namedChildCells)), s) := rfl
  refine ⟨node.namedChildCells, ?_, hd.namedChildCells hcells⟩
  rw [hrun, hnode]
  rfl

theorem yields_slotViews {n : NodeId} {d : Description} (limit : Option Nat) (h : m.Holds s)
    (hr : m.running = none) (hn : m.node n = some d) :
    Yields (slotViews n limit) s m fun views _ m' =>
      views.map (fun v => (v.name, v.ops.map m'.node)) =
        (limit.elim d.namedSlots d.namedSlots.take).map fun x => (x.1, x.2.map some) := by
  obtain ⟨cells, hrun, hcells⟩ := namedChildCells_ok h.fits hn
  refine .skip h hrun rfl (.refl _) rfl fun h' => yields_viewSlots h' hr ?_
  cases limit with
  | none => exact hcells
  | some k => simp only [Option.elim_some, List.map_take, hcells]

theorem yields_slotView? {n : NodeId} {d : Description} (place : Nat) (h : m.Holds s)
    (hr : m.running = none) (hn : m.node n = some d) :
    Yields (slotView? n place) s m fun view _ m' =>
      view.map (fun v => (v.name, v.ops.map m'.node)) =
        d.namedSlots[place]?.map fun x => (x.1, x.2.map some) := by
  obtain ⟨cells, hrun, hcells⟩ := namedChildCells_ok h.fits hn
  refine .skip h hrun rfl (.refl _) rfl fun h' => ?_
  have hplace : cells[place]?.map (fun x => (x.1, m.cell x.2)) =
      d.namedSlots[place]?.map fun x => (x.1, some x.2) := by
    rw [← List.getElem?_map, hcells, List.getElem?_map]
  cases hx : cells[place]? with
  | none =>
    rw [hx] at hplace
    have hnone : d.namedSlots[place]? = none := by simpa using hplace.symm
    exact .pure h' (by simp [hnone])
  | some x =>
    rw [hx] at hplace
    obtain ⟨y, hy, hyx⟩ := Option.map_eq_some_iff.mp hplace.symm
    obtain ⟨hname, hc⟩ := Prod.mk.inj hyx
    refine (yields_operations h' hr hc.symm).bind fun hholds _ hops => .pure hholds ?_
    rw [hy, Option.map_some, Option.map_some, hops.2.1, hname]

end Session
end BoundTree
