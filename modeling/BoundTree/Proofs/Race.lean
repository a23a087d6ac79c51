import BoundTree.Proofs.Parents
import BoundTree.Proofs.Remains

/-!
What becomes of a value that comes too late, because a second read of its slot ran to completion before.
Main statement: nothing, as long as the values change nothing for good that has a name. Both reads return
the published value, and the run that was too late leaves no link and no operation behind.
-/
namespace BoundTree.Session

open Procedure

variable {us : List Use} {r u s t : Session} {c : CellId} {p : Producer} {n : NodeId}
  {es : List NodeExpr} {ops : List NodeId}

/-- The names are those of the same operations, which have the same links. -/
def Undisturbed (us : List Use) (s t : Session) : Prop :=
  ∀ use ∈ us, ∀ id, use.id? = some id → t.node? id = s.node? id ∧
    ∀ m, s.node? id = some m → t.store.link? m = s.store.link? m

/-- The uses of names change nothing for good, and what is lent is not a value too. -/
structure Repeatable (us : List Use) (s : Session) : Prop where
  passive : ∀ use ∈ us, use.isPassive
  apart : ∀ id id' m, .lent id ∈ us → .value id' ∈ us → s.node? id = some m → s.node? id' ≠ some m

/-- A child slot that was never read, and whose producer makes the same values in every run, which can be
made again. -/
structure Unread (s : Session) (c : CellId) (p : Producer) (n : NodeId) (es : List NodeExpr) : Prop where
  moment : s.Moment
  content : s.store.content? c = some (.deferred p 0 [] none)
  owner : s.store.owner? c = some ⟨n, .attached⟩
  value : ∀ run, p.valueOf run = es
  repeatable : Repeatable (nodesUses .value es) s

/-- The session in which the value is made while nothing races with the read. -/
def lone (s : Session) (c : CellId) (p : Producer) : Session := (s.alone c).started c p.alone

theorem lone_rest (s : Session) (c : CellId) (p : Producer) :
    (s.lone c p).store.nodes = s.store.nodes ∧ (s.lone c p).bindings = s.bindings ∧
      (s.lone c p).verifies = s.verifies := by
  refine ⟨?_, ((s.alone c).started_rest c p.alone).1, ((s.alone c).started_names c p.alone).2⟩
  rw [lone, started_store]
  rfl

theorem Unread.there (h : s.Unread c p n es) : n < s.store.nodes.size := by
  have hadopted : s.Adopted := h.moment.changes.keeps Change.adopted (adopted_start true)
  obtain ⟨node, hnode, -⟩ := hadopted.owner h.owner
  exact Store.node?_lt hnode

theorem Unread.alone_waits (h : s.Unread c p n es) : (s.alone c).Waits c p.alone 0 n es where
  content := ⟨[], by simp [alone, Store.content?_modifyContent, h.content, Content.alone]⟩
  owner := (s.store.owner?_modifyContent _ _ _).trans h.owner
  value := by
    rw [← h.value 1]
    cases p
    rfl
  once _ := by
    cases p
    rfl
  there := h.there
  verifies := h.moment.changes.verifies

/-- While the first run goes on, the slot waits for a later one. -/
theorem Unread.waits (h : s.Unread c p n es) (hr : (s.started c p).Changes r)
    (hnone : r.store.published? c = none) : ∃ k, r.Waits c p (k + 1) n es := by
  have hstarted : (s.started c p).store.content? c = some (.deferred p 1 [] none) := by
    rw [started_store, Store.content?_modifyContent, if_pos rfl, h.content]
    rfl
  obtain ⟨runs, finished, published, hcontent, hruns⟩ := hr.le.deferred hstarted
  obtain ⟨k, rfl⟩ := Nat.exists_eq_add_of_le' hruns
  obtain rfl : published = none := by
    simpa [Store.published?_eq_content?, hcontent, Content.published?] using hnone
  have hchanges : s.Changes r := (s.changes_started c p).trans hr
  refine ⟨k, ⟨finished, hcontent⟩, ?_, h.value _, fun hk => by omega, ?_, ?_⟩
  · obtain ⟨cell, hcell, howner⟩ := Option.bind_eq_some_iff.mp h.owner
    obtain ⟨cell', hcell', hl⟩ := hchanges.le.cell hcell
    exact Option.bind_eq_some_iff.mpr ⟨cell', hcell', hl.owner _ howner⟩
  · exact h.there.trans_le hchanges.le.size_nodes
  · exact hchanges.verifies.trans h.moment.changes.verifies

/-- The value can be made again later, if the names are those of the same operations and nothing that is
lent has got another link. -/
theorem Unread.recurs (h : s.Unread c p n es) (hle : s.store.Le u.store)
    (hverifies : u.verifies = s.verifies)
    (hnamed : ∀ use ∈ nodesUses .value es, ∀ id, use.id? = some id → u.node? id = s.node? id)
    (hlent : ∀ id m, .lent id ∈ nodesUses .value es → s.node? id = some m →
      u.store.link? m = s.store.link? m) : Recurs (nodesUses .value es) (s.lone c p) u := by
  obtain ⟨hnodes, hbindings, hv⟩ := s.lone_rest c p
  have hnode : ∀ m, (s.lone c p).store.node? m = s.store.node? m := fun m => by
    rw [Store.node?, Store.node?, hnodes]
  have hname : ∀ id, (s.lone c p).node? id = s.node? id := fun id => by rw [node?, node?, hbindings]
  refine ⟨h.repeatable.passive, fun hm => hle.node ((hnode _).symm.trans hm), hverifies.trans hv.symm,
    fun use huse id hid => (hnamed use huse id hid).trans (hname id).symm,
    fun use huse id m hid hm => ?_, fun id m hid hm => ?_⟩
  · rw [hnodes]
    exact h.moment.present.node (mentions_node? ((hname id).symm.trans hm))
  · rw [hlent id m hid ((hname id).symm.trans hm), Store.link?, Store.link?, hnode]

/-- Of the values, those that were there before have names. -/
theorem mem_again {x : Store} (hstands : ∀ m ∈ ops, Stands us r .value x m) {m : NodeId}
    (hm : m ∈ ops.map (r.again u)) (hlt : m < u.store.nodes.size) :
    m ∈ ops ∧ m < r.store.nodes.size ∧ ∃ id, .value id ∈ us ∧ r.node? id = some m := by
  obtain ⟨k, hk, rfl⟩ := List.mem_map.mp hm
  have hold : k < r.store.nodes.size := by
    by_contra hnew
    exact absurd hlt (Nat.not_lt.mpr (le_again (Nat.not_lt.mp hnew)))
  rw [again_of_lt hold]
  exact ⟨hk, hold, (hstands k hk).origin.resolve_left (Nat.not_le.mpr hold)⟩

theorem Unread.published?_eq_none (h : s.Unread c p n es) : s.store.published? c = none := by
  rw [Store.published?_eq_content?, h.content]
  rfl

theorem Unread.alone_read (h : s.Unread c p n es) :
    operations c (s.alone c) = readCell ((s.alone c).store.budget + 1) c (s.alone c) := by
  refine operations_unpublished ?_
  rw [Store.published?_eq_content?, alone, Store.content?_modifyContent, if_pos rfl, h.content]
  rfl

/-- The second read makes what was made alone once more, and publishes it. -/
theorem Unread.second (h : s.Unread c p n es) {a : List NodeId} {t₀ : Session}
    (alone : operations c (s.alone c) = (.ok a, t₀)) (hr : (s.started c p).Changes r)
    (hsame : s.Undisturbed (nodesUses .value es) r) {k : Nat} (hwaits : r.Waits c p k n es) (depth : Nat) :
    ∃ r', readCell (depth + 1) c r = (.ok (a.map ((s.lone c p).again (r.started c p))), r') ∧
      r.Publishes r' c n (k + 1) (a.map ((s.lone c p).again (r.started c p))) := by
  rw [h.alone_read] at alone
  have hchanges : s.Changes (r.started c p) :=
    (s.changes_started c p).trans (hr.trans (r.changes_started c p))
  have hname : ∀ id, (r.started c p).node? id = r.node? id := fun id => by
    rw [node?, node?, (r.started_rest c p).1]
  have hlink : ∀ m, (r.started c p).store.link? m = r.store.link? m := fun m => by
    rw [started_store, Store.link?_modifyContent]
  have hrecurs : Recurs (nodesUses .value es) (s.lone c p) (r.started c p) :=
    h.recurs hchanges.le hchanges.verifies
      (fun use huse id hid => (hname id).trans (hsame use huse id hid).1)
      fun id m hid hm => (hlink m).trans ((hsame _ hid id rfl).2 m hm)
  obtain ⟨r', hread⟩ := h.alone_waits.again hwaits hrecurs
    (fun id m hid hm => (hsame _ hid id rfl).2 m hm) alone depth
  exact ⟨r', hread, hwaits.publishes hrecurs.right hread⟩

theorem publicationViolation?_of_published (h : s.store.published? c = some ops) (run : Nat)
    (candidate : List NodeId) : s.publicationViolation? c run candidate = none := by
  unfold publicationViolation?
  rw [h]

theorem prepare_held (readOne : CellId → Procedure (List NodeId)) (p : Producer) (run : Nat) (s : Session) :
    (prepare readOne p run s).2.held = s.held := by
  unfold prepare
  rw [bind_apply, read_apply]
  dsimp only
  generalize p.reenter.bind s.node? = m
  split <;> rfl

theorem changes_of_prepare {depth run : Nat} {x : Except Fault Unit}
    (hu : prepare (readCell depth) p run (s.started c p) = (x, u)) : s.Changes u :=
  (s.changes_started c p).trans
    ((changing_logic.prepare (changing_logic.readSlotCell depth) p run).reaches hu)

theorem Moment.prepare (h : s.Moment) {depth run : Nat}
    (hu : prepare (readCell depth) p run (s.started c p) = (.ok (), u)) : u.Moment := by
  have hpresent := (finds_logic.prepare (finds_logic.readSlotCell depth) p run _ (h.present.started c p)
    (has_nothing _)).1
  have hheld := prepare_held (readCell depth) p run (s.started c p)
  rw [hu] at hpresent hheld
  have hsu := changes_of_prepare hu
  refine ⟨h.changes.trans hsu, hpresent, fun d hd => (h.held d ?_).trans_le hsu.le.size_cells⟩
  rwa [hheld, (s.started_rest c p).2.2] at hd

/-- The first read makes its value after the second one has published, drops it, and changes nothing. -/
theorem Unread.late (h : s.Unread c p n es) {a : List NodeId} {t₀ : Session}
    (alone : operations c (s.alone c) = (.ok a, t₀))
    (hu : prepare (readCell s.store.budget) p 1 (s.started c p) = (.ok (), u))
    (hr : Recurs (nodesUses .value es) (s.lone c p) u) (hops : u.store.published? c = some ops)
    (hlink : ∀ m ∈ a, ∀ id, .value id ∈ nodesUses .value es → s.node? id = some m →
      u.store.link? m = some n) :
    ∃ candidate v, evalNodes es u = (.ok candidate, v) ∧
      operations c s = (.ok ops, { v with held := u.held }.settle c 1 candidate) ∧
      u.Touches ({ v with held := u.held }.settle c 1 candidate) c [] := by
  rw [h.alone_read] at alone
  obtain ⟨v₀, heval₀, -, -⟩ := (h.alone_waits.readCell_iff hr.left).mp alone
  obtain ⟨v, heval, hmirrors, hstands⟩ := evalNodes_again hr heval₀
  have hc : c < s.store.cells.size := Store.content?_lt h.content
  have hle : s.store.Le u.store := (changes_of_prepare hu).le
  have hheld : (s.started c p).held = u.held := by
    rw [← prepare_held (readCell s.store.budget) p 1 (s.started c p), hu]
  refine ⟨_, v, heval, ?_, ?_⟩
  · obtain ⟨cell, hcell, hd⟩ := Option.map_eq_some_iff.mp h.content
    obtain ⟨cell₁, hcell₁, -⟩ := hle.cell hcell
    obtain ⟨cell₂, hcell₂, -⟩ := hmirrors.right.grows.toLe.cell hcell₁
    have hops' : ({ v with held := u.held } : Session).store.published? c = some ops :=
      hmirrors.right.grows.toLe.published? hops
    rw [operations_unpublished h.published?_eq_none, readCell_deferred hcell hd,
      bind_ok (produce_eq_ok.mpr ⟨u, v, hu, by rw [h.value]; exact heval, rfl⟩), hheld]
    refine (offer_eq_ok (s := { v with held := u.held }) hcell₂).mpr ⟨?_, ?_, rfl⟩
    · rw [hops', Option.getD_some]
    · exact publicationViolation?_of_published hops' _ _
  · have htouches := touches_run hr.right (hc.trans_le hle.size_cells) heval 1
    refine { htouches with link := fun m hm _ => ?_ }
    by_cases hin : m ∈ a.map ((s.lone c p).again u)
    · -- what was there before has the link already
      obtain ⟨ha, -, id, hid, hname⟩ := mem_again hstands hin hm
      have hlinked := hlink m ha id hid ?_
      · rw [htouches.le.link? hlinked, hlinked]
      · rwa [node?, (s.lone_rest c p).2.1] at hname
    · exact htouches.link m hm hin

/-- Where nothing with a name has changed but by the second read, the first one drops its value. -/
theorem Unread.first (h : s.Unread c p n es) {a : List NodeId} {t₀ : Session}
    (alone : operations c (s.alone c) = (.ok a, t₀)) (hr : (s.started c p).Changes r)
    (hsame : s.Undisturbed (nodesUses .value es) r) {k : Nat} (hwaits : r.Waits c p k n es) {depth : Nat}
    {r' : Session} (hread : readCell (depth + 1) c r = (.ok ops, r')) (hchanges : r'.Changes u)
    (hsame' : r'.Undisturbed (nodesUses .value es) u)
    (hu : prepare (readCell s.store.budget) p 1 (s.started c p) = (.ok (), u)) :
    ∃ candidate v, evalNodes es u = (.ok candidate, v) ∧
      operations c s = (.ok ops, { v with held := u.held }.settle c 1 candidate) ∧
      u.Touches ({ v with held := u.held }.settle c 1 candidate) c [] := by
  obtain ⟨r'', hread', hpublishes⟩ := h.second alone hr hsame hwaits depth
  obtain ⟨heq, rfl⟩ := Prod.mk.inj (hread.symm.trans hread')
  cases heq
  have hsr : s.Changes r := (s.changes_started c p).trans hr
  have hru : r.Changes u := (changes_of_readCell hread).trans hchanges
  have hsu : s.Changes u := hsr.trans hru
  have hname : ∀ id, r'.node? id = r.node? id := fun id => by
    rw [node?, node?, hpublishes.touches.bindings]
  have hknown : ∀ {id m}, s.node? id = some m → m < s.store.nodes.size := fun hm =>
    h.moment.present.node (mentions_node? hm)
  obtain ⟨hnodes, hbindings, -⟩ := s.lone_rest c p
  have hself := (h.recurs (.refl _) rfl (fun _ _ _ _ => rfl) fun _ _ _ _ => rfl).left
  obtain ⟨v₀, heval₀, -, -⟩ := (h.alone_waits.readCell_iff hself).mp (h.alone_read.symm.trans alone)
  obtain ⟨-, -, -, hstands⟩ := evalNodes_again hself heval₀
  refine h.late alone hu (h.recurs hsu.le hsu.verifies ?_ ?_)
    (hchanges.le.published? hpublishes.published) ?_
  · exact fun use huse id hid => (hsame' use huse id hid).1.trans
      ((hname id).trans (hsame use huse id hid).1)
  · intro id m hid hm
    have hmr : r.node? id = some m := (hsame _ hid id rfl).1.trans hm
    have hlt : m < r.store.nodes.size := (hknown hm).trans_le hsr.le.size_nodes
    have hapart : m ∉ a.map ((s.lone c p).again (r.started c p)) := by
      intro hin
      have hlt' : m < (r.started c p).store.nodes.size := by
        rw [started_store]
        exact hlt
      obtain ⟨-, -, id', hid', hm'⟩ := mem_again hstands hin hlt'
      refine h.repeatable.apart id id' m hid hid' hm ?_
      rwa [node?, hbindings] at hm'
    rw [(hsame' _ hid id rfl).2 m ((hname id).trans hmr), hpublishes.touches.link m hlt hapart,
      (hsame _ hid id rfl).2 m hm]
  · intro m hm id hid hname
    refine hchanges.le.link? (hpublishes.link m (List.mem_map.mpr ⟨m, hm, again_of_lt ?_⟩))
    rw [hnodes]
    exact hknown hname

/-! Two reads and no others. -/

theorem enumerate_published {depth : Nat} {cells : List CellId}
    (h : ∀ d ∈ cells, (s.store.published? d).isSome) :
    enumerate (readCell (depth + 1)) cells s = (.ok (), s) := by
  induction cells with
  | nil => rfl
  | cons d cells ih =>
    obtain ⟨ops, hops⟩ := Option.isSome_iff_exists.mp (h d List.mem_cons_self)
    rw [enumerate, bind_ok (readCell_published hops depth)]
    exact ih fun e he => h e (List.mem_cons_of_mem _ he)

/-- Where the other slots have their values, to read them all is to read this one. -/
theorem enumerate_eq {depth : Nat} {cells : List CellId}
    (hread : readCell (depth + 1) c s = (.ok ops, t)) (hc : c ∈ cells)
    (others : ∀ d ∈ cells, d ≠ c → (s.store.published? d).isSome) :
    enumerate (readCell (depth + 1)) cells s = (.ok (), t) := by
  have hle : s.store.Le t.store := (changes_of_readCell hread).le
  induction cells with
  | nil => exact absurd hc List.not_mem_nil
  | cons d cells ih =>
    rw [enumerate]
    by_cases hd : d = c
    · rw [hd, bind_ok hread]
      refine enumerate_published fun e he => ?_
      by_cases heq : e = c
      · rw [heq, published?_of_readCell hread]
        rfl
      · obtain ⟨ops', hops⟩ := Option.isSome_iff_exists.mp (others e (List.mem_cons_of_mem _ he) heq)
        rw [hle.published? hops]
        rfl
    · obtain ⟨ops', hops⟩ := Option.isSome_iff_exists.mp (others d List.mem_cons_self hd)
      rw [bind_ok (readCell_published hops depth)]
      exact ih ((List.mem_cons.mp hc).resolve_left (Ne.symm hd)) fun e he =>
        others e (List.mem_cons_of_mem _ he)

/-- The moment in its first run at which the producer comes to read the children of an operation. -/
def entering (s : Session) (c : CellId) (p : Producer) (m : NodeId) : Session :=
  { s.started c p with held := .node m :: s.held }

theorem prepare_first {readOne : CellId → Procedure (List NodeId)} {m : NodeId}
    (h : p.reenter.bind s.node? = some m) : prepare readOne p 1 s =
      releasing (hold (.node m) >>= fun _ => childCells m >>= enumerate readOne) s := by
  unfold prepare
  rw [bind_ok (read_apply s), h]
  rfl

theorem prepare_entering {m : NodeId} {node : Node} {id : String} {depth : Nat}
    (hreenter : p.reenter = some id) (hid : s.node? id = some m) (hnode : s.store.node? m = some node)
    (hc : c ∈ node.childCells) (others : ∀ d ∈ node.childCells, d ≠ c → (s.store.published? d).isSome)
    (hread : readCell (depth + 1) c (s.entering c p m) = (.ok ops, t)) :
    prepare (readCell (depth + 1)) p 1 (s.started c p) = (.ok (), { t with held := s.held }) := by
  have hname : p.reenter.bind (s.started c p).node? = some m := by
    rw [hreenter, Option.bind_some, node?, (s.started_rest c p).1]
    exact hid
  have hentering : (s.started c p).store.node? m = some node := by
    rw [started_store]
    exact hnode
  have hheld := (s.started_rest c p).2.2
  rw [prepare_first hname, releasing_apply, bind_ok (hold_apply _ _), hheld]
  have hcells : childCells m (s.entering c p m) = (.ok node.childCells, s.entering c p m) := by
    unfold childCells entering
    simp only [bind_apply, read_apply, hentering, Option.elim_some, pure_apply]
  have hall : enumerate (readCell (depth + 1)) node.childCells (s.entering c p m) = (.ok (), t) := by
    refine enumerate_eq hread hc fun d hd hne => ?_
    unfold entering
    rw [started_store, Store.published?_modifyContent_of (by simp)]
    exact others d hd hne
  have hrun := (bind_ok hcells).trans hall
  unfold entering at hrun
  rw [hrun]

/-- Nothing was reported of a slot that was never read. -/
theorem Unread.reports_eq_nil (h : s.Unread c p n es) : s.reports c = [] := by
  have haccounted : s.Accounted c :=
    h.moment.changes.keeps (P := fun s => ∀ c, s.Accounted c) Change.accounted (accounted_start true) c
  unfold Accounted at haccounted
  rw [h.content] at haccounted
  have hnil : ∀ {finished reports}, Content.Accounted (.deferred p 0 finished none) reports →
      reports = [] := by
    intro finished reports h
    cases h
    rfl
  exact hnil haccounted

/-- Where the run reads nothing but the slot itself again, both reads succeed. -/
theorem Unread.race (h : s.Unread c p n es) {a : List NodeId} {t₀ : Session}
    (alone : operations c (s.alone c) = (.ok a, t₀)) {id : String} {m : NodeId} {node : Node}
    (hreenter : p.reenter = some id) (hid : s.node? id = some m) (hnode : s.store.node? m = some node)
    (hc : c ∈ node.childCells) (others : ∀ d ∈ node.childCells, d ≠ c → (s.store.published? d).isSome) :
    ∃ ops r' t, readCell s.store.budget c (s.entering c p m) = (.ok ops, r') ∧
      operations c s = (.ok ops, t) ∧ s.Touches t c ops ∧
      t.reports c = [(1, none), (2, some ops.length)] := by
  obtain ⟨depth, hdepth⟩ : ∃ depth, s.store.budget = depth + 1 :=
    Nat.exists_eq_add_of_le' (Nat.le_add_right_of_le ((Nat.zero_le n).trans_lt h.there))
  have hentering : (s.started c p).Changes (s.entering c p m) := Changes.names rfl rfl rfl
  have hsame : s.Undisturbed (nodesUses .value es) (s.entering c p m) := by
    refine fun use _ id _ => ⟨?_, fun k _ => ?_⟩
    · rw [node?, node?, entering, (s.started_rest c p).1]
    · rw [entering, started_store, Store.link?_modifyContent]
  have hcontent : (s.entering c p m).store.content? c = some (.deferred p 1 [] none) := by
    rw [entering, started_store, Store.content?_modifyContent, if_pos rfl, h.content]
    rfl
  obtain ⟨k, hwaits⟩ := h.waits hentering (by rw [Store.published?_eq_content?, hcontent]; rfl)
  obtain rfl : k = 0 := by
    obtain ⟨finished, hk⟩ := hwaits.content
    rw [hcontent] at hk
    simp only [Option.some.injEq, Content.deferred.injEq] at hk
    omega
  obtain ⟨r', hread, hpublishes⟩ := h.second alone hentering hsame hwaits depth
  generalize a.map ((s.lone c p).again ((s.entering c p m).started c p)) = ops at hread hpublishes
  have hprepare := prepare_entering hreenter hid hnode hc others hread
  obtain ⟨candidate, v, heval, hfirst, hlate⟩ := h.first (u := { r' with held := s.held }) alone
    hentering hsame hwaits hread (Changes.names rfl rfl rfl) (fun _ _ _ _ => ⟨rfl, fun _ _ => rfl⟩)
    (hdepth ▸ hprepare)
  have hstarted := touches_started s c p
  have hc' : c < s.store.cells.size := Store.content?_lt h.content
  refine ⟨ops, r', _, hdepth ▸ hread, hfirst, ?_, ?_⟩
  · have hsecond : (s.started c p).Touches { r' with held := s.held } c ops :=
      { hpublishes.touches with held := hstarted.held.symm }
    exact ((hstarted.mono ops).trans hsecond hc').trans (hlate.mono ops) hc'
  · have hadds := additions_of_evalNodes heval
    have hpublished : ({ v with held := s.held } : Session).store.published? c = some ops :=
      Store.Le.published? hadds.grows.toLe hpublishes.published
    have hreports : ({ v with held := s.held } : Session).reports c = [(2, some ops.length)] := by
      have hafter : v.reports c = r'.reports c := hadds.reports c
      have hbefore : (s.entering c p m).reports c = s.reports c := started_reports s c p c
      rw [hpublishes.reports, hbefore, h.reports_eq_nil] at hafter
      exact hafter
    rw [reports_settle, if_pos rfl, hpublished, hreports]
    rfl

/-- A read that comes too late, because a second read of the slot ran to completion before it makes its
value, is harmless: the second read succeeds and publishes, so does the first one with the same value, and
of what is in use then nothing but that value is new or has got another link. So it is, wherever the second
read takes place and whatever else is read, if names and the links of what is named are left alone; and in
particular if nothing else is read. -/
theorem race_harmless (h : s.Unread c p n es) {a : List NodeId} {t₀ : Session}
    (alone : operations c (s.alone c) = (.ok a, t₀)) :
    (∀ r, (s.started c p).Changes r → s.Undisturbed (nodesUses .value es) r →
      r.store.published? c = none → ∀ depth, ∃ ops r', readCell (depth + 1) c r = (.ok ops, r') ∧
        r'.store.published? c = some ops ∧
        (∀ m < r.store.nodes.size, m ∉ ops → r'.store.link? m = r.store.link? m) ∧
        ∀ u, r'.Changes u → r'.Undisturbed (nodesUses .value es) u →
          prepare (readCell s.store.budget) p 1 (s.started c p) = (.ok (), u) →
            ∃ t, operations c s = (.ok ops, t) ∧ t.store.published? c = some ops ∧
              ∀ m, t.isAlive m = true → m < u.store.nodes.size ∧ t.store.link? m = u.store.link? m) ∧
    ∀ id m node, p.reenter = some id → s.node? id = some m → s.store.node? m = some node →
      c ∈ node.childCells → (∀ d ∈ node.childCells, d ≠ c → (s.store.published? d).isSome) →
        ∃ ops r' t, readCell s.store.budget c (s.entering c p m) = (.ok ops, r') ∧
          operations c s = (.ok ops, t) ∧ t.store.published? c = some ops ∧
          t.reports c = [(1, none), (2, some ops.length)] ∧
          ∀ k, t.isAlive k = true → ¬Reaches t.store ops k →
            k < s.store.nodes.size ∧ t.store.link? k = s.store.link? k := by
  have hpresent : ∀ {x ops'}, operations c s = (.ok ops', x) → x.Present := by
    intro x ops' hrun
    have hx := (finds_logic.operations c s h.moment.present (has_nothing s)).1
    rwa [hrun] at hx
  have hpublished : ∀ {x ops'}, operations c s = (.ok ops', x) → x.store.published? c = some ops' :=
    fun hrun => IsRead.published? (.inl hrun.symm)
  constructor
  · intro r hr hsame hnone depth
    obtain ⟨k, hwaits⟩ := h.waits hr hnone
    obtain ⟨r', hread, hpublishes⟩ := h.second alone hr hsame hwaits depth
    refine ⟨_, r', hread, hpublishes.published, hpublishes.touches.link, fun u hchanges hsame' hu => ?_⟩
    obtain ⟨candidate, v, -, hfirst, hlate⟩ := h.first alone hr hsame hwaits hread hchanges hsame' hu
    refine ⟨_, hfirst, hpublished hfirst, fun m halive => ?_⟩
    have hvalue : ∀ ops', Store.published? _ c = some ops' → u.store.published? c = some ops' ∨ ops' = [] :=
      fun ops' ho => .inl ((hchanges.le.published? hpublishes.published).trans
        ((hpublished hfirst).symm.trans ho))
    have hold : m < u.store.nodes.size :=
      (hlate.lt_or_reaches (h.moment.prepare hu) (hpresent hfirst) hvalue halive).resolve_right
        fun ⟨k, hk, _⟩ => absurd hk List.not_mem_nil
    exact ⟨hold, hlate.link m hold List.not_mem_nil⟩
  · intro id m node hreenter hid hnode hc others
    obtain ⟨ops, r', t, hread, hfirst, htouches, hreports⟩ := h.race alone hreenter hid hnode hc others
    refine ⟨ops, r', t, hread, hfirst, hpublished hfirst, hreports, fun k halive hnot => ?_⟩
    have hvalue : ∀ ops', t.store.published? c = some ops' →
        s.store.published? c = some ops' ∨ ops' = ops := fun ops' ho =>
      .inr (Option.some.inj (ho.symm.trans (hpublished hfirst)))
    have hold : k < s.store.nodes.size :=
      (htouches.lt_or_reaches h.moment (hpresent hfirst) hvalue halive).resolve_right hnot
    exact ⟨hold, htouches.link k hold fun hin => hnot ⟨k, hin, .refl⟩⟩

/-- A block in use, whose producer enumerates the children of the block before it makes these values; and a
free slot. -/
def racing (es : List NodeExpr) : Session :=
  ((start true).after [.build (emptyStatement (some "x")), .build (emptyStatement (some "y")),
    .makeSlot "q" .many (.filled []),
    .build (block (some "b") (.deferred (.mk none (some "b") es [])))]).holding [2]

theorem size_racing (es : List NodeExpr) : (racing es).store.nodes.size = 3 := rfl

theorem racing_moment (es : List NodeExpr) : (racing es).Moment := by
  refine (Reached.start.after _).moment fun n hn => ?_
  rw [List.mem_singleton.mp hn]
  exact (Nat.lt_succ_self 2).trans_eq (size_racing es).symm

theorem racing_slot (es : List NodeExpr) :
    (racing es).store.content? 1 = some (.deferred (.mk none (some "b") es []) 0 [] none) ∧
      (racing es).store.owner? 1 = some ⟨2, .attached⟩ ∧
      ∀ run, (Producer.mk none (some "b") es []).valueOf run = es :=
  ⟨rfl, rfl, Producer.valueOf_single _ _ es⟩

theorem racing_names (es : List NodeExpr) : (racing es).node? "x" = some 0 ∧
    (racing es).node? "y" = some 1 ∧ (racing es).node? "b" = some 2 := ⟨rfl, rfl, rfl⟩

/-- A named statement and a new switch case, whose condition has a name too. -/
def mixedValue : List NodeExpr := [.named "x", switchCase none (.filled [.named "y"])]

/-- The first run drops another switch case, and the statement is shared. -/
theorem race_harmless_mixedValue : ∃ ops t, operations 1 (racing mixedValue) = (.ok ops, t) ∧
    t.reports 1 = [(1, none), (2, some ops.length)] ∧
    ∀ k, t.isAlive k = true → ¬Reaches t.store ops k →
      t.store.link? k = (racing mixedValue).store.link? k := by
  obtain ⟨hcontent, howner, hvalue⟩ := racing_slot mixedValue
  have hblock : ((racing mixedValue).store.node? 2).map Node.childCells = some [1] := by decide +kernel
  obtain ⟨node, hnode, hcells⟩ := Option.map_eq_some_iff.mp hblock
  obtain ⟨hx, hy, hb⟩ := racing_names mixedValue
  have huses : nodesUses .value mixedValue = [.value "x", .lent "y"] := rfl
  have hrepeatable : Repeatable (nodesUses .value mixedValue) (racing mixedValue) := by
    rw [huses]
    refine ⟨by decide, fun id id' m hid hid' hm hm' => ?_⟩
    obtain rfl : id = "y" := by simpa using hid
    obtain rfl : id' = "x" := by simpa using hid'
    cases (hy.symm.trans hm)
    cases (hx.symm.trans hm')
  have halone : (operations 1 ((racing mixedValue).alone 1)).1 = .ok [0, 3] := by decide +kernel
  obtain ⟨-, hrace⟩ := race_harmless ⟨racing_moment mixedValue, hcontent, howner, hvalue, hrepeatable⟩
    (eq_ok halone)
  obtain ⟨ops, -, t, -, hrun, -, hreports, hrest⟩ := hrace "b" 2 node rfl hb hnode
    (hcells ▸ List.mem_singleton.mpr rfl) fun d hd hne =>
      absurd (List.mem_singleton.mp (hcells ▸ hd)) hne
  exact ⟨ops, t, hrun, hreports, fun k halive hnot => (hrest k halive hnot).2⟩

/-- Values that change something with a name: it becomes a child, it is lent and a value at once, or it is
a slot and taken. -/
def changingValues : List (List NodeExpr) :=
  [[block none (.filled [.named "x"])], [.named "x", switchCase none (.filled [.named "x"])],
    [block none (.moved "q")]]

/-- The value gives a name. -/
def namingValue : List NodeExpr := [emptyStatement (some "y")]

/-- The values can be made alone, and are those of the second read; the first one panics with them, or
leaves a statement in use that has got a link and is none of the values. -/
theorem race_not_harmless :
    (changingValues ++ [namingValue]).all (fun es => (operations 1 ((racing es).alone 1)).1.isOk &&
      (readCell (racing es).store.budget 1 ((racing es).entering 1 (.mk none (some "b") es []) 2)).1.isOk) ∧
    changingValues.map (fun es => (operations 1 (racing es)).1) =
      [.error (.panicked (.brokenLink (.wrongParent .empty .block (some .block)))),
        .error (.panicked (.brokenLink (.unexpectedParent .empty .switchCase))),
        .error (.panicked .unknownValue)] ∧
    ∃ t, operations 1 (racing namingValue) = (.ok [3], t) ∧ t.isAlive 4 = true ∧
      ¬Reaches t.store [3] 4 ∧ (racing namingValue).store.link? 4 = none ∧ t.store.link? 4 = some 2 := by
  have hread : (operations 1 (racing namingValue)).1 = .ok [3] := by decide +kernel
  have hnames : (operations 1 (racing namingValue)).2.node? "y" = some 4 := by decide +kernel
  have hsize : (operations 1 (racing namingValue)).2.store.nodes.size = 5 := by decide +kernel
  have hholds : (operations 1 (racing namingValue)).2.store.holds 3 = [] := by decide +kernel
  have halive := isAlive_of_node? hnames (by rw [hsize]; exact Nat.lt_succ_self 4)
  refine ⟨by decide +kernel, by decide +kernel, _, eq_ok hread, halive, ?_, by decide +kernel,
    by decide +kernel⟩
  rintro ⟨k, hk, hpath⟩
  rw [List.mem_singleton.mp hk] at hpath
  -- an empty statement holds nothing
  rcases hpath.cases_head with heq | ⟨m, hm, -⟩
  · cases heq
  · rw [hholds] at hm
    exact absurd hm List.not_mem_nil

end BoundTree.Session
