import BoundTree.Proofs.Chart

/-!
Building from closed specifications. Main statement: what can be built is built whatever there is
already, and comes to be as it is described.
-/
namespace BoundTree

open Session

/-- A session fits the chart, and all that is on it can be built. -/
structure Chart.Holds (m : Chart) (s : Session) : Prop where
  fits : m.Fits s
  valid : m.Valid s.verifies

namespace Procedure

variable {α β : Type} {s : Session} {m : Chart}

/-- A procedure succeeds, and the session that it ends in keeps to a later chart. -/
def Yields (x : Procedure α) (s : Session) (m : Chart) (post : α → Session → Chart → Prop) : Prop :=
  ∃ a t m', x s = (.ok a, t) ∧ m'.Holds t ∧ m.Grows s m' t ∧ post a t m'

namespace Yields

variable {x : Procedure α} {f : α → Procedure β} {post : α → Session → Chart → Prop}
  {post' : β → Session → Chart → Prop}

theorem pure {a : α} (h : m.Holds s) (ha : post a s m) : Yields (Pure.pure a) s m post :=
  ⟨a, s, m, rfl, h, .refl m s, ha⟩

theorem bind (hx : Yields x s m post) (hf : ∀ {a t m'}, m'.Holds t → m.Grows s m' t → post a t m' →
    Yields (f a) t m' post') : Yields (x >>= f) s m post' := by
  obtain ⟨a, t, m', hrun, hholds, hgrows, ha⟩ := hx
  obtain ⟨b, u, m'', hrun', hholds', hgrows', hb⟩ := hf hholds hgrows ha
  exact ⟨b, u, m'', (bind_ok hrun).trans hrun', hholds', hgrows.trans hgrows', hb⟩

theorem mono {post' : α → Session → Chart → Prop} (hx : Yields x s m post)
    (h : ∀ {a t m'}, m'.Holds t → m.Grows s m' t → post a t m' → post' a t m') :
    Yields x s m post' := by
  obtain ⟨a, t, m', hrun, hholds, hgrows, ha⟩ := hx
  exact ⟨a, t, m', hrun, hholds, hgrows, h hholds hgrows ha⟩

/-- Where a run is known to have succeeded, what is known of it holds of where it ended. -/
theorem of_ok (hx : Yields x s m post) {a : α} {t : Session} (h : x s = (.ok a, t)) :
    ∃ m' : Chart, m'.Holds t ∧ m.Grows s m' t ∧ post a t m' := by
  obtain ⟨b, u, m', hrun, hholds, hgrows, hb⟩ := hx
  obtain ⟨hba, rfl⟩ := Prod.mk.inj (hrun.symm.trans h)
  cases hba
  exact ⟨m', hholds, hgrows, hb⟩

end Yields
end Procedure

namespace Chart

variable {m m' : Chart} {s t : Session}

theorem Holds.of_store_eq (h : m.Holds s) (hstore : t.store = s.store) (hnames : s.names.Le t.names)
    (hverifies : t.verifies = s.verifies) : m.Holds t :=
  ⟨h.fits.of_store_eq hstore hnames, hverifies ▸ h.valid⟩

theorem Grows.of_store_eq (m : Chart) (hstore : t.store = s.store) (hnames : s.names.Le t.names)
    (hverifies : t.verifies = s.verifies) : m.Grows s m t :=
  ⟨id, id, fun _ => rfl, rfl, fun _ => by rw [hstore], fun _ ho => by rw [hstore]; exact ho, hnames,
    hverifies⟩

end Chart

namespace Procedure.Yields

variable {α β : Type} {s t : Session} {m : Chart} {post : α → Session → Chart → Prop}

/-- What leaves the store as it is can be passed over. -/
theorem skip {x : Procedure β} {f : β → Procedure α} {b : β} (h : m.Holds s) (hx : x s = (.ok b, t))
    (hstore : t.store = s.store) (hnames : s.names.Le t.names) (hverifies : t.verifies = s.verifies)
    (hf : m.Holds t → Yields (f b) t m post) : Yields (x >>= f) s m post := by
  have hskip : Yields x s m fun b' t' m' => b' = b ∧ t' = t ∧ m' = m :=
    ⟨b, t, m, hx, h.of_store_eq hstore hnames hverifies, .of_store_eq m hstore hnames hverifies, rfl,
      rfl, rfl⟩
  refine hskip.bind fun hholds _ hpost => ?_
  obtain ⟨rfl, rfl, rfl⟩ := hpost
  exact hf hholds

theorem hold {f : Unit → Procedure α} (k : Holder) (h : m.Holds s)
    (hf : m.Holds { s with held := k :: s.held } →
      Yields (f ()) { s with held := k :: s.held } m post) :
    Yields (Procedure.hold k >>= f) s m post := skip h rfl rfl (.refl _) rfl hf

theorem releasing {x : Procedure α} (hx : Yields x s m post)
    (hpost : ∀ {a t m'}, post a t m' → post a { t with held := s.held } m') :
    Yields (Procedure.releasing x) s m post := by
  obtain ⟨a, t, m', hrun, hholds, hgrows, ha⟩ := hx
  have hgrows' : m'.Grows t m' { t with held := s.held } := .of_store_eq m' rfl (.refl _) rfl
  refine ⟨a, { t with held := s.held }, m', ?_, hholds.of_store_eq rfl (.refl _) rfl,
    hgrows.trans hgrows', hpost ha⟩
  rw [releasing_apply, hrun]

end Procedure.Yields

namespace Chart

variable {m m' : Chart} {s t : Session}

/-- New operations that are as described, and in no slot. -/
structure Built (m : Chart) (ds : List Description) (ops : List NodeId) (m' : Chart) : Prop where
  nodes : ops.map m'.node = ds.map some
  fresh : ∀ n ∈ ops, m.node n = none
  nodup : ops.Nodup
  unplaced : ∀ n ∈ ops, m'.place n = none

/-- New slots for what is described, which belong to no operation. -/
structure BuiltCells (m : Chart) (dss : List (List Description)) (cells : List CellId) (t : Session)
    (m' : Chart) : Prop where
  described : cells.map m'.cell = dss.map some
  fresh : ∀ c ∈ cells, m.cell c = none
  nodup : cells.Nodup
  unowned : ∀ c ∈ cells, t.store.owner? c = none

theorem Grows.addCell (h : m.Grows s m' t) (hfits : m'.Fits t) (arity : Arity) (content : Content)
    {ops : List NodeId} (ds : List Description) (hops : ∀ n ∈ ops, m.node n = none) :
    m.Grows s ((m'.addCell t.store.cells.size ds).put t.store.cells.size ops)
      (withCell t arity content) where
  node hn := h.node hn
  cell {c ds'} hc := (if_neg (hfits.lt_cell (h.cell hc)).ne).trans (h.cell hc)
  place {n d} hn := by
    have hnot : n ∉ ops := fun hin => by simp [hops n hin] at hn
    exact (if_neg hnot).trans (h.place hn)
  running := h.running
  owner hc := (t.store.owner?_addCell arity content _).trans (h.owner hc)
  published {c ds' ops'} hc ho := by
    have hne : c ≠ t.store.cells.size := (hfits.lt_cell (h.cell hc)).ne
    exact ((t.store.published?_addCell _ c).trans (if_neg hne)).trans (h.published hc ho)
  names := h.names
  verifies := h.verifies

theorem Grows.addOperation (h : m.Grows s m' t) (hfits : m'.Fits t) (header : Header)
    (payload : Payload) {cells : List CellId} (d : Description)
    (hcells : ∀ c ∈ cells, m.cell c = none) :
    m.Grows s (m'.addNode t.store.nodes.size d) (t.withOperation header payload cells) where
  node hn := (if_neg (hfits.lt_node (h.node hn)).ne).trans (h.node hn)
  cell hc := h.cell hc
  place hn := (if_neg (hfits.lt_node (h.node hn)).ne).trans (h.place hn)
  running := h.running
  owner {c ds} hc := by
    refine Eq.trans ?_ (h.owner hc)
    refine Store.owner?_installAll_of_notMem fun hin => ?_
    have hmem : c ∈ cells := (Node.linkedCells_sublist ⟨header, payload, cells, none⟩).subset hin
    simp [hcells c hmem] at hc
  published hc ho := (t.store.published?_addOperation header payload cells _).trans (h.published hc ho)
  names := h.names
  verifies := h.verifies

theorem Valid.addCell {v : Bool} (h : m.Valid v) (c : CellId) {ds : List Description}
    (hds : ∀ d ∈ ds, d.Valid v) (ops : List NodeId) : ((m.addCell c ds).put c ops).Valid v where
  node hn := h.node hn
  cell {k ds'} hk := by
    by_cases hkc : k = c
    · obtain rfl : ds = ds' := Option.some.inj ((if_pos hkc).symm.trans hk)
      exact hds
    · exact h.cell ((if_neg hkc).symm.trans hk)

theorem Valid.addNode {v : Bool} (h : m.Valid v) (n : NodeId) {d : Description} (hd : d.Valid v) :
    (m.addNode n d).Valid v where
  node {k e} hk := by
    by_cases hkn : k = n
    · obtain rfl : d = e := Option.some.inj ((if_pos hkn).symm.trans hk)
      exact hd
    · exact h.node ((if_neg hkn).symm.trans hk)
  cell hc := h.cell hc

/-- The check of a new operation finds nothing wrong where the models of its children agree with its
own. -/
theorem Fits.constructionViolation?_eq_none {header : Header} {payload : Payload} {cells : List CellId}
    {d : Description}
    (h : (m.addNode s.store.nodes.size d).Fits (s.withOperation header payload cells))
    (hv : s.verifies = true) : s.constructionViolation? header payload cells = none ↔
      ∀ k ∈ (s.withOperation header payload cells).store.heldBy .attached s.store.nodes.size, ∀ e,
        (m.addNode s.store.nodes.size d).node k = some e → d.mismatch? e = none := by
  -- while it is checked the operation is in use
  let t : Session := { s.withOperation header payload cells with
    held := .node s.store.nodes.size :: s.held }
  have ht : (m.addNode s.store.nodes.size d).Fits t := h.of_store_eq rfl (.refl _)
  have hd : (m.addNode s.store.nodes.size d).node s.store.nodes.size = some d := if_pos rfl
  obtain ⟨node, hnode, -⟩ := ht.node hd
  have hheld : (s.withOperation header payload cells).store.heldBy .attached s.store.nodes.size =
      t.store.heldIn .attached node.linkedCells := by
    rw [Store.heldBy]
    dsimp only [t] at hnode
    rw [hnode]
    rfl
  unfold Session.constructionViolation?
  rw [if_pos hv, hheld]
  dsimp only [t] at hnode
  dsimp only
  rw [hnode, Option.map_some, Option.getD_some, List.findSome?_eq_none_iff]
  constructor
  · intro hnone k hk e he
    obtain ⟨e', he', -, hcheck⟩ := ht.checkLink hd hnode hk
    cases he.symm.trans he'
    rw [if_pos rfl] at hcheck
    exact hcheck.symm.trans (hnone (.attached, k) (mem_positions.mpr hk))
  · rintro hmodels ⟨l, k⟩ hk
    obtain ⟨e, he, -, hcheck⟩ := ht.checkLink hd hnode (mem_positions.mp hk)
    rw [hcheck]
    split
    · next hl =>
      obtain rfl : l = .attached := hl
      exact hmodels k (mem_positions.mp hk) e he
    · rfl

/-- Where the models agree, the check of a new operation finds nothing wrong. -/
theorem Fits.constructionViolation? {header : Header} {payload : Payload} {cells : List CellId}
    {d : Description}
    (h : (m.addNode s.store.nodes.size d).Fits (s.withOperation header payload cells))
    (hmodels : s.verifies = true → d.faults = []) :
    s.constructionViolation? header payload cells = none := by
  by_cases hv : s.verifies = true
  · refine (h.constructionViolation?_eq_none hv).mpr fun k hk e he => ?_
    obtain ⟨node, c, ops, hnode, hc, ho, hin⟩ := Store.mem_heldBy.mp hk
    obtain ⟨e', he', hmem, -⟩ :=
      h.checkLink (if_pos rfl) hnode (Store.mem_heldIn.mpr ⟨c, ops, hc, ho, hin⟩)
    cases he.symm.trans he'
    exact List.filterMap_eq_nil_iff.mp (hmodels hv) e (hmem rfl)
  · unfold Session.constructionViolation?
    exact if_neg hv

theorem cells_withOperation {header : Header} {payload : Payload} {cells : List CellId} {node : Node}
    (h : (s.withOperation header payload cells).store.node? s.store.nodes.size = some node) :
    node.cells = cells := by
  have hstore : (s.withOperation header payload cells).store =
      (s.store.addNode ⟨header, payload, cells, none⟩).2.installAll s.store.nodes.size
        (Node.linkedCells ⟨header, payload, cells, none⟩) := rfl
  rw [hstore, Store.node?_installAll, Store.node?_addNode, if_pos rfl, Option.map_some] at h
  cases h
  split <;> rfl

/-- Where the check of a new operation finds nothing wrong, the models agree. -/
theorem Fits.faults_eq_nil {header : Header} {payload : Payload} {cells : List CellId}
    {d : Description}
    (h : (m.addNode s.store.nodes.size d).Fits (s.withOperation header payload cells))
    (hnone : s.constructionViolation? header payload cells = none) (hv : s.verifies = true)
    (hcells : ∀ c ∈ cells, (s.store.published? c).isSome) : d.faults = [] := by
  have hd : (m.addNode s.store.nodes.size d).node s.store.nodes.size = some d := if_pos rfl
  obtain ⟨node, hnode, hdesc, hslots, -⟩ := h.node hd
  refine List.filterMap_eq_nil_iff.mpr fun e he => ?_
  -- the child is in a slot, and the check has been there
  obtain ⟨⟨field, ds⟩, hx, he⟩ := List.mem_flatMap.mp he
  dsimp only at he
  split at he
  · next hl =>
    have hmem : (field.linkage, some ds) ∈ (d.shape.slots.zip d.slots).map fun x =>
        (x.1.linkage, some x.2) := List.mem_map.mpr ⟨_, hx, rfl⟩
    rw [← hdesc.linkedCells hslots, hl] at hmem
    obtain ⟨⟨l, c⟩, hc, heq⟩ := List.mem_map.mp hmem
    obtain ⟨rfl, hds⟩ := Prod.mk.inj heq
    have hcell : c ∈ node.cells := node.linkedCells_sublist.subset (List.mem_map_of_mem hc)
    rw [cells_withOperation hnode] at hcell
    obtain ⟨ops, ho⟩ := Option.isSome_iff_exists.mp (hcells c hcell)
    have ho' : (s.withOperation header payload cells).store.published? c = some ops :=
      (s.store.published?_addOperation header payload cells c).trans ho
    obtain ⟨hnodes, -, -⟩ := h.filled hds ho'
    obtain ⟨k, hk, hke⟩ : ∃ k ∈ ops, (m.addNode s.store.nodes.size d).node k = some e :=
      List.mem_map.mp (hnodes ▸ List.mem_map_of_mem he)
    exact (h.constructionViolation?_eq_none hv).mp hnone k
      (Store.mem_heldBy.mpr ⟨node, c, ops, hnode, hc, ho', hk⟩) e hke
  · cases he

end Chart

/-! Attributes. -/

/-- Values that are as their traits say. -/
structure Shown (traits : List Trait) (values : List AttributeValue) (names : NameTable) : Prop where
  blank : values.map AttributeValue.blank = traits.map Trait.blank
  /-- The names in them have got their numbers. -/
  text : ∀ later, names.Le later → values.map AttributeValue.debug = traits.map (Trait.text later)

namespace Session

open Procedure

variable {m : Chart} {s : Session}

theorem intern_apply (name : String) (s : Session) :
    intern name s = (.ok (s.names.intern name).1, { s with names := (s.names.intern name).2 }) := rfl

theorem shown_intern (x : NameTable) (name : String) {later : NameTable}
    (h : (x.intern name).2.Le later) : later.shown name = (x.intern name).1.debug := by
  rw [NameTable.shown, h name _ (x.get?_intern name)]
  rfl

theorem internAll_ok (names : List NameExpr) (hc : names.all (· ≠ .malformed)) (s : Session) :
    ∃ ss x, internAll names s = (.ok ss, { s with names := x }) ∧ s.names.Le x ∧
      ss.map (·.map fun _ => (⟨0⟩ : Symbol)) = (names.map NameExpr.name?).map (·.map fun _ => ⟨0⟩) ∧
      ∀ later, x.Le later →
        ss.map (·.map Symbol.debug) = (names.map NameExpr.name?).map (·.map later.shown) := by
  induction names generalizing s with
  | nil => exact ⟨[], s.names, rfl, .refl _, rfl, fun _ _ => rfl⟩
  | cons e names ih =>
    have hrest : names.all (· ≠ .malformed) := by
      simp only [List.all_cons, Bool.and_eq_true] at hc
      exact hc.2
    cases e with
    | absent =>
      obtain ⟨ss, x, hrun, hle, hblank, htext⟩ := ih hrest s
      refine ⟨none :: ss, x, bind_ok hrun, hle, ?_, fun later h => ?_⟩
      · simpa [NameExpr.name?] using hblank
      · simpa [NameExpr.name?] using htext later h
    | malformed => simp at hc
    | name name =>
      obtain ⟨ss, x, hrun, hle, hblank, htext⟩ := ih hrest { s with names := (s.names.intern name).2 }
      refine ⟨some (s.names.intern name).1 :: ss, x,
        (bind_ok (intern_apply name s)).trans (bind_ok hrun), (s.names.le_intern name).trans hle, ?_,
        fun later h => ?_⟩
      · simpa [NameExpr.name?] using hblank
      · simpa [NameExpr.name?, shown_intern _ _ (hle.trans h)] using htext later h

theorem shown_optionalSymbols {ss : List (Option Symbol)} {ns : List (Option String)} {x : NameTable}
    (hblank : ss.map (·.map fun _ => (⟨0⟩ : Symbol)) = ns.map (·.map fun _ => ⟨0⟩))
    (htext : ∀ later, x.Le later → ss.map (·.map Symbol.debug) = ns.map (·.map later.shown)) :
    Shown [.optionalSymbols ns] [.optionalSymbols ss] x := by
  refine ⟨by simp [AttributeValue.blank, Trait.blank, hblank], fun later h => ?_⟩
  have hshown := congrArg (List.map Text.optional) (htext later h)
  simp only [List.map_map, Function.comp_def] at hshown
  simp [AttributeValue.debug, Trait.text, hshown]

theorem shown_function {n : NodeId} {d : Description} {node : Node} {x y : NameTable}
    (h : d.Describes x node) : Shown [.function d] [.function ⟨n, node.kind, node.header.locus⟩] y := by
  refine ⟨?_, fun later _ => ?_⟩
  · simp [AttributeValue.blank, Trait.blank, h.kind, h.header]
  · simp [AttributeValue.debug, FunctionRef.debug, Trait.text, h.kind, h.header]

end Session

namespace Chart

variable {m m' m'' : Chart} {s t u : Session}

theorem Built.append {ds ds' : List Description} {ops ops' : List NodeId} (h : m.Built ds ops m')
    (hgrows : m.Grows s m' t) (k : m'.Built ds' ops' m'') (hgrows' : m'.Grows t m'' u) :
    m.Built (ds ++ ds') (ops ++ ops') m'' where
  nodes := by rw [List.map_append, List.map_append, map_eq_of_le h.nodes hgrows'.node, k.nodes]
  fresh n hn := by
    rcases List.mem_append.mp hn with hn | hn
    · exact h.fresh n hn
    · exact hgrows.node_eq_none (k.fresh n hn)
  nodup := by
    refine h.nodup.append k.nodup fun n hn hn' => ?_
    obtain ⟨d, -, hd⟩ := exists_of_map_eq h.nodes hn
    cases hd.symm.trans (k.fresh n hn')
  unplaced n hn := by
    rcases List.mem_append.mp hn with hn | hn
    · obtain ⟨d, -, hd⟩ := exists_of_map_eq h.nodes hn
      exact (hgrows'.place hd).trans (h.unplaced n hn)
    · exact k.unplaced n hn

theorem BuiltCells.grows {dss : List (List Description)} {cells : List CellId}
    (h : m.BuiltCells dss cells t m') (hgrows : m'.Grows t m'' u) : m.BuiltCells dss cells u m'' where
  described := map_eq_of_le h.described hgrows.cell
  fresh := h.fresh
  nodup := h.nodup
  unowned c hc := by
    obtain ⟨ds, -, hds⟩ := exists_of_map_eq h.described hc
    exact (hgrows.owner hds).trans (h.unowned c hc)

theorem BuiltCells.append {dss dss' : List (List Description)} {cells cells' : List CellId}
    (h : m.BuiltCells dss cells t m') (hgrows : m.Grows s m' t) (k : m'.BuiltCells dss' cells' u m'')
    (hgrows' : m'.Grows t m'' u) : m.BuiltCells (dss ++ dss') (cells ++ cells') u m'' where
  described := by
    rw [List.map_append, List.map_append, map_eq_of_le h.described hgrows'.cell, k.described]
  fresh c hc := by
    rcases List.mem_append.mp hc with hc | hc
    · exact h.fresh c hc
    · exact hgrows.cell_eq_none (k.fresh c hc)
  nodup := by
    refine h.nodup.append k.nodup fun c hc hc' => ?_
    obtain ⟨ds, -, hds⟩ := exists_of_map_eq h.described hc
    cases hds.symm.trans (k.fresh c hc')
  unowned c hc := by
    rcases List.mem_append.mp hc with hc | hc
    · exact (h.grows hgrows').unowned c hc
    · exact k.unowned c hc

end Chart

theorem nodesDescribed_length : ∀ {es : List NodeExpr}, nodesClosed es →
    (nodesDescribed es).length = es.length
  | [], _ => rfl
  | .build spec :: es, h => by
    rw [nodesClosed, Bool.and_eq_true] at h
    have ih := nodesDescribed_length h.2
    simp [nodesDescribed, NodeExpr.described, ih]
  | .named _ :: _, h => by simp [nodesClosed, NodeExpr.isClosed] at h
  | .malformed :: _, h => by simp [nodesClosed, NodeExpr.isClosed] at h

namespace Session

open Procedure Chart

variable {m : Chart} {s : Session}

/-- A new slot. -/
theorem newCell_ok {m₀ : Chart} {s₀ : Session} (hgrows : m₀.Grows s₀ m s) (h : m.Holds s)
    {arity : Arity} {content : Content} {ops : List NodeId} {ds : List Description}
    (hadd : ((m.addCell s.store.cells.size ds).put s.store.cells.size ops).Fits
      (withCell s arity content))
    (hvalid : ∀ d ∈ ds, d.Valid s.verifies) (hops : ∀ n ∈ ops, m₀.node n = none) :
    ∃ t m', newCell arity content s = (.ok s.store.cells.size, t) ∧ m'.Holds t ∧ m₀.Grows s₀ m' t ∧
      m₀.BuiltCells [ds] [s.store.cells.size] t m' := by
  have hheld : m₀.Grows s₀ ((m.addCell s.store.cells.size ds).put s.store.cells.size ops)
      { withCell s arity content with held := .cell s.store.cells.size :: s.held } :=
    (hgrows.addCell h.fits arity content ds hops).trans (.of_store_eq _ rfl (.refl _) rfl)
  have hunowned : (withCell s arity content).store.owner? s.store.cells.size = none :=
    (s.store.owner?_addCell arity _ _).trans (by simp [Store.owner?, Store.cell?])
  refine ⟨_, _, newCell_apply arity content s, ⟨hadd.of_store_eq rfl (.refl _), ?_⟩, hheld,
    by simp [put, addCell], ?_, by simp, ?_⟩
  · exact h.valid.addCell _ hvalid ops
  · intro c hc
    rw [List.mem_singleton.mp hc]
    exact hgrows.cell_eq_none h.fits.cell_size
  · intro c hc
    rw [List.mem_singleton.mp hc]
    exact hunowned

theorem yields_filled {values : List NodeExpr} {ds : List Description} {arity : Arity}
    (ha : arity.admits values.length) (hvalid : ∀ d ∈ ds, d.Valid s.verifies)
    (hx : Yields (evalNodes values) s m fun ops _ m' => m.Built ds ops m') :
    Yields (evalSlot arity (.filled values)) s m fun c t m' => m.BuiltCells [ds] [c] t m' := by
  obtain ⟨ops, t, m', hrun, hholds, hgrows, hbuilt⟩ := hx
  obtain ⟨u, m'', hrun', hnew⟩ := newCell_ok hgrows hholds
    (hholds.fits.addFilled arity hbuilt.nodes hbuilt.nodup hbuilt.unplaced)
    (hgrows.verifies ▸ hvalid) hbuilt.fresh
  refine ⟨_, u, m'', ?_, hnew⟩
  rw [evalSlot]
  dsimp only
  rw [if_neg (by simp [ha])]
  exact (bind_ok hrun).trans hrun'

theorem yields_deferred (arity : Arity) {p : Producer} (hp : p.isClosed)
    (hvalid : ∀ d ∈ p.described, d.Valid s.verifies) (h : m.Holds s) :
    Yields (evalSlot arity (.deferred p)) s m fun c t m' => m.BuiltCells [p.described] [c] t m' := by
  obtain ⟨t, m', hrun, hnew⟩ := newCell_ok (.refl m s) h (h.fits.addDeferred arity hp) hvalid (by simp)
  rw [evalSlot]
  exact ⟨_, t, m', hrun, hnew⟩

/-- What is described can be built from slots for it. -/
theorem construct_ok {m₀ : Chart} {s₀ : Session} (hgrows : m₀.Grows s₀ m s) (h : m.Holds s)
    {header : Header} {payload : Payload} {cells : List CellId} {d : Description}
    (hd : d.Describes s.names ⟨header, payload, cells, none⟩) (hvalid : d.Valid s.verifies)
    (hcells : m₀.BuiltCells d.slots cells s m) :
    ∃ t m', construct header payload cells s = (.ok s.store.nodes.size, t) ∧ m'.Holds t ∧
      m₀.Grows s₀ m' t ∧ m₀.Built [d] [s.store.nodes.size] m' := by
  have hfits := h.fits.addOperation hcells.described hcells.nodup hcells.unowned hd
  refine ⟨s.withOperation header payload cells, m.addNode s.store.nodes.size d, ?_,
    ⟨hfits, h.valid.addNode _ hvalid⟩, hgrows.addOperation h.fits header payload d hcells.fresh, ?_⟩
  · obtain ⟨hp, haccepted, -, hmodels, -, -⟩ := hvalid
    have herror : payload.error? header = none := by
      have hpayload := hd.payload
      rw [hp] at hpayload
      cases hpayload
      have hheader : header = d.header := hd.header
      rw [hheader, ← Payload.error?_blank]
      exact haccepted
    rw [construct_apply, herror, hfits.constructionViolation? hmodels]
  · refine ⟨by simp [addNode], ?_, by simp, by simp [addNode]⟩
    intro n hn
    rw [List.mem_singleton.mp hn]
    exact hgrows.node_eq_none h.fits.node_size

theorem describes {names : NameTable} {header : Header} {shape : Shape} {tag : Option Kind}
    {traits : List Trait} {slots : List (List Description)} {values : List AttributeValue}
    {payload : Payload} (hshown : Shown traits values names)
    (hpayload : Payload.make? shape tag values = some payload) (cells : List CellId) :
    (Description.mk header shape tag traits slots).Describes names ⟨header, payload, cells, none⟩ := by
  have hblank : (Description.mk header shape tag traits slots).payload? = some payload.blank := by
    have hmake := Payload.make?_blank shape tag values
    rw [hshown.blank, hpayload] at hmake
    exact hmake
  refine ⟨rfl, hblank, fun later hle => ?_⟩
  obtain ⟨hshape, htag, hattributes⟩ := Payload.make?_eq_some hpayload
  have hkind : payload.kind = shape.kindOf tag := congrArg₂ Shape.kindOf hshape htag
  have htext := congrArg (List.zip (shape.attributes.map (·.1))) (hshown.text later hle)
  rw [List.zip_map_right, List.zip_map_right] at htext
  simp only [nodeText, Description.text, Node.kind, hkind, hattributes]
  exact congrArg (factsText (shape.kindOf tag) header) htext

theorem shown_append {traits traits' : List Trait} {values values' : List AttributeValue}
    {x y : NameTable} (h : Shown traits values x) (hle : x.Le y) (k : Shown traits' values' y) :
    Shown (traits ++ traits') (values ++ values') y := by
  refine ⟨by rw [List.map_append, List.map_append, h.blank, k.blank], fun later hl => ?_⟩
  rw [List.map_append, List.map_append, h.text later (hle.trans hl), k.text later hl]

mutual

theorem yields_evalNode : ∀ (e : NodeExpr) {s : Session} {m : Chart}, e.isClosed →
    (∀ d ∈ e.described, d.Valid s.verifies) → m.Holds s →
    Yields (evalNode e) s m fun n _ m' => m.Built e.described [n] m'
  | .named _, _, _, hc, _, _ => by simp [NodeExpr.isClosed] at hc
  | .malformed, _, _, hc, _, _ => by simp [NodeExpr.isClosed] at hc
  | .build spec, s, m, hc, hvalid, h => by
    rw [evalNode]
    rw [NodeExpr.described] at hvalid ⊢
    exact yields_evalSpec spec hc (hvalid _ List.mem_cons_self) h

/-- What can be built is built, whatever there is already. -/
theorem yields_evalSpec : ∀ (spec : NodeSpec) {s : Session} {m : Chart}, spec.isClosed →
    spec.description.Valid s.verifies → m.Holds s →
    Yields (evalSpec spec) s m fun n _ m' => m.Built [spec.description] [n] m'
  | .mk id header shape tag slots attributes, s, m, hc, hvalid, h => by
    rw [NodeSpec.isClosed, Bool.and_eq_true] at hc
    rw [NodeSpec.description] at hvalid ⊢
    have hdescription := hvalid
    obtain ⟨hp, -, harities, -, hvalues, hfunctions⟩ := hvalid
    have harities' : List.Forall₂ (fun a ds => a.admits ds.length = true) (shape.slots.map (·.arity))
        ((slotsDescribed slots).take (shape.slots.map (·.arity)).length) := by
      rw [List.forall₂_map_left_iff, List.length_map]
      exact harities
    obtain ⟨cells, t, m₁, hrun, hholds, hgrows, hcells⟩ := yields_evalSlots (shape.slots.map (·.arity))
      slots hc.1 harities' (by rw [List.length_map]; exact hvalues) h
    obtain ⟨values, u, m₂, hrun', hholds', hgrows', hshown⟩ := yields_evalAttributes attributes
      (s := t) (m := m₁) hc.2 (by rw [hgrows.verifies]; exact hfunctions) hholds
    have hmake : ∃ payload, Payload.make? shape tag values = some payload := by
      have hblank := Payload.make?_blank shape tag values
      rw [hshown.blank] at hblank
      have hp' := hblank.symm.trans hp
      obtain ⟨payload, hpayload, -⟩ := Option.map_eq_some_iff.mp hp'
      exact ⟨payload, hpayload⟩
    obtain ⟨payload, hpayload⟩ := hmake
    have hgrows₂ := hgrows.trans hgrows'
    have hcells' := hcells.grows hgrows'
    rw [List.length_map] at hcells'
    obtain ⟨v, m₃, hrun₃, hholds₃, hgrows₃, hbuilt⟩ := construct_ok hgrows₂ hholds'
      (describes hshown hpayload cells) (hgrows₂.verifies ▸ hdescription) hcells'
    have hparts : Yields (evalSlots (shape.slots.map (·.arity)) slots >>= fun cells =>
        evalAttributes attributes >>= fun values =>
          ofOption .malformed (Payload.make? shape tag values) >>= fun payload =>
            construct header payload cells) s m fun n _ m' =>
        m.Built [.mk header shape tag (attributesTraits attributes)
          ((slotsDescribed slots).take shape.slots.length)] [n] m' := by
      refine ⟨_, v, m₃, (bind_ok hrun).trans ((bind_ok hrun').trans ?_), hholds₃, hgrows₃, hbuilt⟩
      rw [hpayload]
      exact hrun₃
    rw [evalSpec]
    refine (hparts.releasing fun hb => hb).bind fun {n w m'} hholds _ hb => ?_
    refine .skip hholds (modify_apply _ w) ?_ ?_ ?_ fun h' => .pure h' hb
    · cases id <;> rfl
    · cases id <;> exact .refl _
    · cases id <;> rfl

theorem yields_evalNodes : ∀ (es : List NodeExpr) {s : Session} {m : Chart}, nodesClosed es →
    (∀ d ∈ nodesDescribed es, d.Valid s.verifies) → m.Holds s →
    Yields (evalNodes es) s m fun ops _ m' => m.Built (nodesDescribed es) ops m'
  | [], s, m, _, _, h => by
    rw [evalNodes]
    exact .pure h ⟨rfl, by simp, by simp, by simp⟩
  | e :: es, s, m, hc, hvalid, h => by
    rw [nodesClosed, Bool.and_eq_true] at hc
    rw [nodesDescribed] at hvalid ⊢
    rw [evalNodes]
    refine (yields_evalNode e hc.1 (fun d hd => hvalid d (List.mem_append_left _ hd)) h).bind
      fun {n t m'} hholds hgrows hbuilt => ?_
    refine .hold (.node n) hholds fun h' => ?_
    have hgrows₁ := hgrows.trans (.of_store_eq (t := { t with held := .node n :: t.held }) m' rfl
      (.refl _) rfl)
    have hvalid' : ∀ d ∈ nodesDescribed es, d.Valid t.verifies := fun d hd =>
      hgrows.verifies ▸ hvalid d (List.mem_append_right _ hd)
    refine (yields_evalNodes es (s := { t with held := .node n :: t.held }) hc.2 hvalid' h').bind
      fun hholds' hgrows' hbuilt' => .pure hholds' ?_
    exact hbuilt.append hgrows₁ hbuilt' hgrows'

theorem yields_evalSlot : ∀ (e : SlotExpr) (arity : Arity) {s : Session} {m : Chart}, e.isClosed →
    arity.admits e.described.length → (∀ d ∈ e.described, d.Valid s.verifies) → m.Holds s →
    Yields (evalSlot arity e) s m fun c t m' => m.BuiltCells [e.described] [c] t m'
  | .filled values, arity, s, m, hc, ha, hvalid, h => by
    rw [SlotExpr.described, nodesDescribed_length hc] at ha
    exact yields_filled ha hvalid (yields_evalNodes values hc hvalid h)
  | .moved _, _, _, _, hc, _, _, _ => by simp [SlotExpr.isClosed] at hc
  | .deferred p, arity, s, m, hc, _, hvalid, h => yields_deferred arity hc hvalid h
  | .malformed, _, _, _, hc, _, _, _ => by simp [SlotExpr.isClosed] at hc

theorem yields_evalSlots : ∀ (arities : List Arity) (es : List SlotExpr) {s : Session} {m : Chart},
    slotsClosed es →
    List.Forall₂ (fun a ds => a.admits ds.length = true) arities
      ((slotsDescribed es).take arities.length) →
    (∀ ds ∈ (slotsDescribed es).take arities.length, ∀ d ∈ ds, d.Valid s.verifies) → m.Holds s →
    Yields (evalSlots arities es) s m fun cells t m' =>
      m.BuiltCells ((slotsDescribed es).take arities.length) cells t m'
  | [], es, s, m, _, _, _, h => by
    rw [evalSlots]
    exact .pure h ⟨by simp, by simp, by simp, by simp⟩
  | arity :: arities, e :: es, s, m, hc, ha, hvalid, h => by
    rw [slotsClosed, Bool.and_eq_true] at hc
    rw [slotsDescribed, List.length_cons, List.take_succ_cons] at ha hvalid ⊢
    obtain ⟨ha₁, ha₂⟩ := List.forall₂_cons.mp ha
    rw [evalSlots]
    refine (yields_evalSlot e arity hc.1 ha₁ (hvalid _ List.mem_cons_self) h).bind
      fun {c t m'} hholds hgrows hcell => ?_
    have hvalid' : ∀ ds ∈ (slotsDescribed es).take arities.length, ∀ d ∈ ds, d.Valid t.verifies :=
      fun ds hds => hgrows.verifies ▸ hvalid ds (List.mem_cons_of_mem _ hds)
    refine (yields_evalSlots arities es hc.2 ha₂ hvalid' hholds).bind
      fun hholds' hgrows' hcells => .pure hholds' ?_
    exact hcell.append hgrows hcells hgrows'
  | arity :: arities, [], s, m, hc, ha, hvalid, h => by
    simp [slotsDescribed] at ha

theorem yields_evalAttribute : ∀ (e : AttributeExpr) {s : Session} {m : Chart}, e.isClosed →
    (∀ d, .function d ∈ e.traits → d.Valid s.verifies) → m.Holds s →
    Yields (evalAttribute e) s m fun v t _ => Shown e.traits [v] t.names
  | .value v, s, m, hc, _, h => by
    rw [AttributeExpr.isClosed, Option.isNone_iff_eq_none] at hc
    rw [evalAttribute, hc]
    exact .pure h ⟨rfl, fun _ _ => rfl⟩
  | .symbol name, s, m, _, _, h => by
    rw [evalAttribute]
    refine .skip h (intern_apply name s) rfl (s.names.le_intern name) rfl fun h' => .pure h' ?_
    exact ⟨rfl, fun later hle => by
      simp [AttributeExpr.traits, AttributeValue.debug, Trait.text, shown_intern _ _ hle]⟩
  | .optionalSymbols names, s, m, hc, _, h => by
    obtain ⟨ss, x, hrun, hle, hblank, htext⟩ := internAll_ok names hc s
    rw [evalAttribute]
    refine .skip h hrun rfl hle rfl fun h' => .pure h' ?_
    exact shown_optionalSymbols hblank htext
  | .function (.build spec), s, m, hc, hvalid, h => by
    have hspec := hvalid spec.description (by simp [AttributeExpr.traits, NodeExpr.described])
    rw [evalAttribute, evalNode]
    refine (yields_evalSpec spec hc hspec h).bind fun {n t m'} hholds _ hbuilt => ?_
    refine .hold (.node n) hholds fun h' => ?_
    have hnode : m'.node n = some spec.description := by simpa using hbuilt.nodes
    obtain ⟨node, hn, hd, -⟩ := hholds.fits.node hnode
    have hrun : functionRef n { t with held := .node n :: t.held } =
        (.ok ⟨n, node.kind, node.header.locus⟩, { t with held := .node n :: t.held }) := by
      unfold functionRef
      simp only [bind_apply, read_apply, hn, ofOption_some_apply, pure_apply]
    refine .skip h' hrun rfl (.refl _) rfl fun h'' => .pure h'' ?_
    exact shown_function hd
  | .function (.named _), _, _, hc, _, _ => by
    simp [AttributeExpr.isClosed, NodeExpr.isClosed] at hc
  | .function .malformed, _, _, hc, _, _ => by
    simp [AttributeExpr.isClosed, NodeExpr.isClosed] at hc
  | .malformed, _, _, hc, _, _ => by simp [AttributeExpr.isClosed] at hc

theorem yields_evalAttributes : ∀ (es : List AttributeExpr) {s : Session} {m : Chart},
    attributesClosed es → (∀ d, .function d ∈ attributesTraits es → d.Valid s.verifies) → m.Holds s →
    Yields (evalAttributes es) s m fun vs t _ => Shown (attributesTraits es) vs t.names
  | [], s, m, _, _, h => by
    rw [evalAttributes]
    exact .pure h ⟨rfl, fun _ _ => rfl⟩
  | e :: es, s, m, hc, hvalid, h => by
    rw [attributesClosed, Bool.and_eq_true] at hc
    rw [attributesTraits] at hvalid ⊢
    rw [evalAttributes]
    refine (yields_evalAttribute e hc.1 (fun d hd => hvalid d (List.mem_append_left _ hd)) h).bind
      fun {v t m'} hholds hgrows hshown => ?_
    have hvalid' : ∀ d, .function d ∈ attributesTraits es → d.Valid t.verifies := fun d hd =>
      hgrows.verifies ▸ hvalid d (List.mem_append_right _ hd)
    refine (yields_evalAttributes es hc.2 hvalid' hholds).bind
      fun hholds' hgrows' hshown' => .pure hholds' ?_
    exact shown_append hshown hgrows'.names hshown'

end

end Session
end BoundTree
