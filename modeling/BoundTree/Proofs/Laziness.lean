import BoundTree.Proofs.Survey

/-!
Laziness does not show. A tree that is built with producers in some of its slots is seen as the one that
is built at once, after whatever reads of its parts: the kinds, the slots, the checks and the dump are
those described. Only the numbers of names are given when the names are first met, so that they tell in
which order the operations came to be.
-/
namespace BoundTree

/-- From an operation to what slots hold, any number of times. -/
def Store.Reaches (s : Store) : NodeId → NodeId → Prop :=
  Relation.ReflTransGen fun p n => ∃ l, n ∈ s.heldBy l p

/-- The questions that show a tree part by part. -/
def Session.Query.isBrowsing : Session.Query → Bool
  | .children _ | .slots _ | .slot _ | .descendants .. | .dump | .verify | .visits _ | .notes => true
  | _ => false

theorem Chart.Fits.reaches {m : Chart} {s : Session} (h : m.Fits s) {p n : NodeId} {d : Description}
    (hp : m.node p = some d) (hn : s.store.Reaches p n) : ∃ e, m.node n = some e := by
  induction hn with
  | refl => exact ⟨d, hp⟩
  | tail _ hheld ih =>
    obtain ⟨e, he⟩ := ih
    obtain ⟨l, hheld⟩ := hheld
    obtain ⟨node, c, ops, hnode, hc, ho, hmem⟩ := Store.mem_heldBy.mp hheld
    obtain ⟨e', he', -⟩ := h.checkLink he hnode (Store.mem_heldIn.mpr ⟨c, ops, hc, ho, hmem⟩)
    exact ⟨e', he'⟩

namespace Session

open Procedure Chart

variable {m : Chart} {s : Session}

/-- Reads of parts of the tree below an operation, of any operation that has been reached, in any
order. -/
inductive Browsed (root : NodeId) (s : Session) : Session → Prop
  | refl : Browsed root s s
  | ask {t : Session} {n : NodeId} {q : Query} (h : Browsed root s t)
      (hn : t.store.Reaches root n) (hq : q.isBrowsing) : Browsed root s (inquire n q t).2

theorem yields_answer {n : NodeId} {d : Description} (node : Node) {q : Query} (hq : q.isBrowsing)
    (h : m.Holds s) (hr : m.running = none) (hn : m.node n = some d) :
    Yields (answer n node q) s m fun _ _ _ => True := by
  cases q with
  | children limit => exact (yields_children limit h hr hn).bind fun h' _ _ => .pure h' trivial
  | slots limit => exact (yields_slotViews limit h hr hn).bind fun h' _ _ => .pure h' trivial
  | slot place => exact (yields_slotView? place h hr hn).bind fun h' _ _ => .pure h' trivial
  | descendants withSelf limit =>
    cases withSelf with
    | true => exact (yields_descendantsAndSelf limit h hr hn).bind fun h' _ _ => .pure h' trivial
    | false => exact (yields_descendants limit h hr hn).bind fun h' _ _ => .pure h' trivial
  | dump => exact (yields_dump h hr hn).bind fun h' _ _ => .pure h' trivial
  | verify => exact (yields_verifyTree h hr hn).bind fun h' _ _ => .pure h' trivial
  | visits pruned =>
    exact (yields_accept (gives_tracing pruned) [] h hr hn).bind fun h' _ _ => .pure h' trivial
  | notes => exact (yields_accept gives_noting [] h hr hn).bind fun h' _ _ => .pure h' trivial
  | _ => cases hq

/-- No question about what is as described fails. -/
theorem yields_inquire {n : NodeId} {d : Description} {q : Query} (hq : q.isBrowsing) (h : m.Holds s)
    (hr : m.running = none) (hn : m.node n = some d) :
    Yields (inquire n q) s m fun _ _ _ => True := by
  obtain ⟨node, hnode, -⟩ := h.fits.node hn
  refine Yields.releasing (.hold (.node n) h fun h' => ?_) fun _ => trivial
  refine .skip h' (read_apply _) rfl (.refl _) rfl fun h' => ?_
  dsimp only
  rw [hnode]
  exact .skip h' (ofOption_some_apply _ node _) rfl (.refl _) rfl fun h' =>
    yields_answer node hq h' hr hn

/-- Whatever is read, the session keeps to the chart. -/
theorem Browsed.holds {root : NodeId} {d : Description} {t : Session} (hb : Browsed root s t)
    (h : m.Holds s) (hr : m.running = none) (hn : m.node root = some d) :
    ∃ m' : Chart, m'.Holds t ∧ m.Grows s m' t := by
  induction hb with
  | refl => exact ⟨m, h, .refl m s⟩
  | ask _ hreach hq ih =>
    obtain ⟨m', hholds, hgrows⟩ := ih
    obtain ⟨e, he⟩ := hholds.fits.reaches (hgrows.node hn) hreach
    obtain ⟨r, u, m'', hrun, hholds', hgrows', -⟩ :=
      yields_inquire hq hholds (hgrows.running.trans hr) he
    rw [hrun]
    exact ⟨m'', hholds', hgrows.trans hgrows'⟩

/-! What is seen of a whole tree. -/

/-- The kinds of an operation and of all below it, in pre-order. -/
def kindsBelow (n : NodeId) : Procedure (List (Option Kind)) := do
  let ops ← descendantsAndSelf n none
  return ops.map (← read).kind?

/-- The child slots of an operation and of all below it, in pre-order: their names, and how many
children each has. -/
def slotsBelow (n : NodeId) : Procedure (List (List (String × Nat))) := do
  let ops ← descendantsAndSelf n none
  ops.mapM fun k => do
    return (← slotViews k none).map fun v => (v.name, v.ops.length)

theorem yields_kindsBelow {n : NodeId} {d : Description} (h : m.Holds s) (hr : m.running = none)
    (hn : m.node n = some d) :
    Yields (kindsBelow n) s m fun kinds _ _ => kinds = d.all.map fun e => some e.kind := by
  refine (yields_descendantsAndSelf none h hr hn).bind fun {ops t m'} hholds hgrows hops => ?_
  refine .skip hholds (read_apply t) rfl (.refl _) rfl fun hholds => .pure hholds ?_
  have hkind : ∀ k ∈ ops, t.kind? k = (m'.node k).map Description.kind := by
    intro k hk
    obtain ⟨e, -, he⟩ := exists_of_map_eq hops hk
    obtain ⟨node, hnode, hd, -⟩ := hholds.fits.node he
    rw [kind?, hnode, he, Option.map_some, Option.map_some, hd.kind]
  have hkinds := congrArg (List.map (Option.map Description.kind)) hops
  rw [List.map_map, List.map_map] at hkinds
  exact (List.map_congr_left hkind).trans hkinds

theorem yields_slotsBelow {n : NodeId} {d : Description} (h : m.Holds s) (hr : m.running = none)
    (hn : m.node n = some d) :
    Yields (slotsBelow n) s m fun slots _ _ => slots = d.all.map Description.slotCounts := by
  refine (yields_descendantsAndSelf none h hr hn).bind fun hholds hgrows hops => ?_
  refine (yields_mapM (f := fun _ e => e.slotCounts) ?_ hholds (hgrows.running.trans hr) hops).mono
    fun _ _ hslots => hslots _ (.refl _)
  intro k e t m' h' hr' hk _
  refine (yields_slotViews none h' hr' hk).bind fun h'' _ hviews => .pure h'' fun _ _ => ?_
  have hcounts := congrArg (List.map fun x => (x.1, x.2.length)) hviews
  simpa [Description.slotCounts, Function.comp_def] using hcounts

/-- Whatever was read of a tree that is as described, no question about a part of it fails, and the
tree is seen as it is described. -/
theorem Browsed.seen {root : NodeId} {d : Description} {t : Session} (hb : Browsed root s t)
    (h : m.Holds s) (hr : m.running = none) (hn : m.node root = some d) :
    (∀ n q, t.store.Reaches root n → q.isBrowsing → ∃ r u, inquire n q t = (.ok r, u)) ∧
    (kindsBelow root t).1 = .ok (d.all.map fun e => some e.kind) ∧
    (slotsBelow root t).1 = .ok (d.all.map Description.slotCounts) ∧
    (verifyTree root t).1 = .ok d.violations ∧
    ∃ u, dump root t = (.ok (d.dumpText u.names), u) ∧ s.names.Le u.names := by
  obtain ⟨m', hholds, hgrows⟩ := hb.holds h hr hn
  have hr' := hgrows.running.trans hr
  have hn' := hgrows.node hn
  refine ⟨fun n q hreach hq => ?_, ?_, ?_, ?_, ?_⟩
  · obtain ⟨e, he⟩ := hholds.fits.reaches hn' hreach
    obtain ⟨r, u, -, hrun, -⟩ := yields_inquire hq hholds hr' he
    exact ⟨r, u, hrun⟩
  · obtain ⟨_, _, -, hrun, -, -, rfl⟩ := yields_kindsBelow hholds hr' hn'
    rw [hrun]
  · obtain ⟨_, _, -, hrun, -, -, rfl⟩ := yields_slotsBelow hholds hr' hn'
    rw [hrun]
  · obtain ⟨_, _, -, hrun, -, -, rfl⟩ := yields_verifyTree hholds hr' hn'
    rw [hrun]
  · obtain ⟨_, u, _, hrun, -, hgrows', rfl⟩ := yields_dump hholds hr' hn'
    exact ⟨u, hrun, hgrows.names.trans hgrows'.names⟩

end Session

/-- Nothing is described yet. -/
def Chart.blank : Chart := ⟨fun _ => none, fun _ => none, fun _ => none, none⟩

theorem Chart.holds_blank (s : Session) : blank.Holds s where
  fits := ⟨nofun, nofun, nofun, nofun, nofun⟩
  valid := ⟨nofun, nofun⟩

namespace Session

open Procedure Chart

/-- What can be built is built as described, from whatever there is already. -/
theorem evalSpec_charted {spec : NodeSpec} {s : Session} (hclosed : spec.isClosed)
    (hvalid : spec.description.Valid s.verifies) :
    ∃ n t, ∃ m : Chart, evalSpec spec s = (.ok n, t) ∧ m.Holds t ∧ m.running = none ∧
      m.node n = some spec.description ∧ s.names.Le t.names := by
  obtain ⟨n, t, m, hrun, hholds, hgrows, hbuilt⟩ := yields_evalSpec spec hclosed hvalid (holds_blank s)
  exact ⟨n, t, m, hrun, hholds, hgrows.running, by simpa using hbuilt.nodes, hgrows.names⟩

/-- Where a closed specification without producers is built, the same with producers is built too, and
after whatever reads of parts of either tree the two are seen alike: no read fails, the kinds, the slots
and the violations are the same, and so is the dump, but for the numbers by which it shows names that had
none before. -/
theorem laziness_transparent {l : NodeSpec} {s t : Session} {n : NodeId} (hclosed : l.isClosed)
    (heager : evalSpec l.forced s = (.ok n, t)) :
    ∃ k u, evalSpec l s = (.ok k, u) ∧ ∀ v w, Browsed n t v → Browsed k u w →
      (∀ p q, w.store.Reaches k p → q.isBrowsing → ∃ r x, inquire p q w = (.ok r, x)) ∧
      (∃ kinds, (kindsBelow n v).1 = .ok kinds ∧ (kindsBelow k w).1 = .ok kinds) ∧
      (∃ slots, (slotsBelow n v).1 = .ok slots ∧ (slotsBelow k w).1 = .ok slots) ∧
      (∃ found, (verifyTree n v).1 = .ok found ∧ (verifyTree k w).1 = .ok found) ∧
      ∃ x y, dump n v = (.ok (l.description.dumpText x.names), x) ∧
        dump k w = (.ok (l.description.dumpText y.names), y) ∧
        ((∀ name ∈ l.description.names, (s.names.get? name).isSome) →
          l.description.dumpText x.names = l.description.dumpText y.names) := by
  have hvalid := valid_evalSpec l hclosed (holds_blank s) heager
  obtain ⟨n', t', m, hrun, hholds, hr, hn, hnames⟩ :=
    evalSpec_charted (l.isClosed_forced hclosed) (by rwa [l.description_forced])
  obtain ⟨hn', rfl⟩ := Prod.mk.inj (hrun.symm.trans heager)
  cases hn'
  rw [l.description_forced] at hn
  obtain ⟨k, u, m', hrun', hholds', hr', hk, hnames'⟩ := evalSpec_charted hclosed hvalid
  refine ⟨k, u, hrun', fun v w hv hw => ?_⟩
  obtain ⟨-, hkinds, hslots, hfound, x, hx, hsx⟩ := hv.seen hholds hr hn
  obtain ⟨hreads, hkinds', hslots', hfound', y, hy, hsy⟩ := hw.seen hholds' hr' hk
  refine ⟨hreads, ⟨_, hkinds, hkinds'⟩, ⟨_, hslots, hslots'⟩, ⟨_, hfound, hfound'⟩, x, y, hx, hy,
    fun hold => Description.dumpText_congr fun name hname => ?_⟩
  obtain ⟨i, hi⟩ := Option.isSome_iff_exists.mp (hold name hname)
  rw [hnames.trans hsx name i hi, hnames'.trans hsy name i hi]

/-- A reference to a member of one that is made when it is first read; both names are new. -/
def lateName : NodeSpec :=
  let header : Header := { locus := ⟨⟨0⟩, Span.make 0 0⟩ }
  let attributes (name : String) : List AttributeExpr :=
    [.symbol name, .value (.handles .type []), .value (.optionalHandle .type none)]
  .mk none header .dynamicMemberReference none
    [.deferred (.mk none none [.build (.mk none header .dynamicMemberReference none [.filled []]
      (attributes "b"))] [])] (attributes "a")

/-- After whatever reads, there are two references, one below the other. -/
theorem laziness_transparent_lateName :
    lateName.isClosed ∧ (evalSpec lateName.forced (start true)).1 = .ok 1 ∧
      ∃ k u, evalSpec lateName (start true) = (.ok k, u) ∧ ∀ w, Browsed k u w →
        (kindsBelow k w).1 = .ok [some .dynamicMemberReference, some .dynamicMemberReference] ∧
        (verifyTree k w).1 = .ok [] := by
  have hclosed : lateName.isClosed := by decide
  have heager : (evalSpec lateName.forced (start true)).1 = .ok 1 := by decide +kernel
  refine ⟨hclosed, heager, ?_⟩
  obtain ⟨k, u, hrun, hseen⟩ := laziness_transparent hclosed (eq_ok heager)
  refine ⟨k, u, hrun, fun w hw => ?_⟩
  obtain ⟨-, ⟨kinds, hkinds, hkinds'⟩, -, ⟨found, hfound, hfound'⟩, -⟩ := hseen _ w .refl hw
  have hcount : (kindsBelow 1 (evalSpec lateName.forced (start true)).2).1 =
      .ok [some .dynamicMemberReference, some .dynamicMemberReference] := by decide +kernel
  have hclean : (verifyTree 1 (evalSpec lateName.forced (start true)).2).1 = .ok [] := by decide +kernel
  cases hkinds.symm.trans hcount
  cases hfound.symm.trans hclean
  exact ⟨hkinds', hfound'⟩

/-- Names get their numbers in the order in which operations are made, and a dump shows the numbers: the
whole text is not the same. -/
theorem dump_tells_order : ¬ ∀ (l : NodeSpec) (s t : Session) (n : NodeId), l.isClosed →
    evalSpec l.forced s = (.ok n, t) → ∃ k u, evalSpec l s = (.ok k, u) ∧
      ∀ w, Browsed k u w → (dump k w).1 = (dump n t).1 := by
  intro h
  have heager : (evalSpec lateName.forced (start true)).1 = .ok 1 := by decide +kernel
  have hlazy : (evalSpec lateName (start true)).1 = .ok 0 := by decide +kernel
  obtain ⟨k, u, hrun, hsame⟩ := h lateName (start true) _ 1 (by decide) (eq_ok heager)
  obtain ⟨hk, rfl⟩ := Prod.mk.inj ((eq_ok hlazy).symm.trans hrun)
  cases hk
  have htexts : (dump 1 (evalSpec lateName.forced (start true)).2).1.toOption ≠
      (dump 0 (evalSpec lateName (start true)).2).1.toOption := by decide +kernel
  exact htexts (congrArg Except.toOption (hsame _ .refl)).symm

end Session
end BoundTree
