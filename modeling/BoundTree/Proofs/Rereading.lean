import BoundTree.Proofs.LinkSoundness
import BoundTree.Proofs.Replay

/-!
Reads of a slot whose producer always makes the same values. Main statement: a read that came to a value
does so again in every session in which the slot still waits, as long as what has a name there is as it
was.
-/
namespace BoundTree

/-- The producer that makes the same values and enumerates nothing before. -/
def Producer.alone : Producer → Producer
  | .mk counter _ first later => .mk counter none first later

/-- A producer with one value comes to it in every run. -/
theorem Producer.valueOf_single (counter reenter : Option String) (es : List NodeExpr) (run : Nat) :
    (Producer.mk counter reenter es []).valueOf run = es :=
  List.mem_singleton.mp (Producer.valueOf_mem _ run)

def Content.alone : Content → Content
  | .deferred p runs finished published => .deferred p.alone runs finished published
  | .filled ops => .filled ops

namespace Session

open Procedure

/-- The session in which nothing races with a read of the slot. -/
def alone (s : Session) (c : CellId) : Session :=
  { s with store := s.store.modifyContent c (·.alone) }

/-! Runs of producers. -/

theorem prepare_eq {readOne : CellId → Procedure (List NodeId)} {p : Producer} {run : Nat}
    (h : run = 1 → p.reenter = none) (s : Session) : prepare readOne p run s = (.ok (), s) := by
  unfold prepare
  rw [bind_ok (read_apply s)]
  generalize hn : p.reenter.bind s.node? = n
  split
  · rw [h rfl] at hn
    cases hn
  · rfl

theorem produce_eq_ok {depth : Nat} {p : Producer} {run : Nat} {s t : Session} {ops : List NodeId} :
    produce depth p run s = (.ok ops, t) ↔ ∃ u v, prepare (readCell depth) p run s = (.ok (), u) ∧
      evalNodes (p.valueOf run) u = (.ok ops, v) ∧ t = { v with held := s.held } := by
  unfold produce
  rw [mapFault_apply, releasing_apply]
  constructor
  · intro h
    obtain ⟨hok, rfl⟩ := Prod.mk.inj h
    have hrun : ∀ {r : Except Fault (List NodeId)}, r.mapError producerFault = .ok ops → r = .ok ops := by
      intro r hr
      cases r with
      | ok a => exact hr
      | error f => cases hr
    obtain ⟨⟨⟩, u, hprepare, heval⟩ := bind_eq_ok (Prod.ext (hrun hok) rfl)
    exact ⟨u, _, hprepare, heval, rfl⟩
  · rintro ⟨u, v, hprepare, heval, rfl⟩
    rw [bind_ok hprepare, heval]
    rfl

theorem additions_of_evalNodes {es : List NodeExpr} {s t : Session} {r : Except Fault (List NodeId)}
    (h : evalNodes es s = (r, t)) : s.Additions t :=
  (adding_logic.evalNodes es).reaches h

theorem changes_of_readCell {depth : Nat} {c : CellId} {s t : Session} {r : Except Fault (List NodeId)}
    (h : readCell depth c s = (r, t)) : s.Changes t :=
  (changing_logic.readSlotCell depth c).reaches h

/-- A child slot that waits for the value of its next run, which enumerates nothing. -/
structure Waits (s : Session) (c : CellId) (p : Producer) (runs : Nat) (n : NodeId)
    (es : List NodeExpr) : Prop where
  content : ∃ finished, s.store.content? c = some (.deferred p runs finished none)
  owner : s.store.owner? c = some ⟨n, .attached⟩
  value : p.valueOf (runs + 1) = es
  once : runs + 1 = 1 → p.reenter = none
  there : n < s.store.nodes.size
  verifies : s.verifies = true

/-- The value of a run may be published: its operations have no other parent, and belong to the same
semantic model. -/
def Fitting (s : Session) (n : NodeId) (ops : List NodeId) : Prop :=
  ∀ m ∈ ops, (s.store.link? m = none ∨ s.store.link? m = some n) ∧ s.store.ModelsAgree n m

theorem modelsAgree_settle {s : Session} {c : CellId} {run : Nat} {ops : List NodeId} {n m : NodeId} :
    (s.settle c run ops).store.ModelsAgree n m ↔ s.store.ModelsAgree n m := by
  have hfacts : ∀ {k node}, s.store.node? k = some node → ∃ node',
      (s.settle c run ops).store.node? k = some node' ∧ node'.header = node.header ∧
        node'.kind = node.kind := by
    intro k node hk
    obtain ⟨node', hk', hle⟩ := (s.le_settle c run ops).node hk
    exact ⟨node', hk', hle.header, hle.kind⟩
  have hback : ∀ {k node'}, (s.settle c run ops).store.node? k = some node' →
      ∃ node, s.store.node? k = some node := by
    intro k node' hk
    rw [node?_settle, Store.node?_receive] at hk
    obtain ⟨node, hnode, -⟩ := Option.map_eq_some_iff.mp hk
    exact ⟨node, hnode⟩
  constructor
  · intro h parent child hp hc
    obtain ⟨parent', hp', hheader, hkind⟩ := hfacts hp
    obtain ⟨child', hc', hheader', hkind'⟩ := hfacts hc
    have hagree := h parent' child' hp' hc'
    rwa [hheader, hkind, hheader', hkind'] at hagree
  · intro h parent' child' hp' hc'
    obtain ⟨parent, hp⟩ := hback hp'
    obtain ⟨child, hc⟩ := hback hc'
    obtain ⟨x, hx, hheader, hkind⟩ := hfacts hp
    obtain ⟨y, hy, hheader', hkind'⟩ := hfacts hc
    cases hp'.symm.trans hx
    cases hc'.symm.trans hy
    rw [hheader, hkind, hheader', hkind']
    exact h parent child hp hc

theorem publicationViolation?_eq_none {s : Session} {c : CellId} {n : NodeId} {run : Nat}
    {ops : List NodeId} (hv : s.verifies = true) (howner : s.store.owner? c = some ⟨n, .attached⟩)
    (hnone : s.store.published? c = none) (hn : n < s.store.nodes.size)
    (hops : ∀ m ∈ ops, m < s.store.nodes.size) :
    s.publicationViolation? c run ops = none ↔ s.Fitting n ops := by
  have hle := s.le_settle c run ops
  obtain ⟨parent, hparent⟩ := Option.isSome_iff_exists.mp
    (Store.node?_isSome (hn.trans_le hle.size_nodes))
  unfold publicationViolation?
  rw [hnone, howner]
  dsimp only
  rw [if_pos hv, List.findSome?_eq_none_iff]
  refine forall₂_congr fun m hm => ?_
  have hthere : (s.store.node? m).isSome := Store.node?_isSome (hops m hm)
  obtain ⟨child, hchild⟩ := Option.isSome_iff_exists.mp
    (Store.node?_isSome ((hops m hm).trans_le hle.size_nodes))
  rw [checkLink_attached, childFault?_eq_none hparent hchild, Store.Linked, modelsAgree_settle,
    link?_settle, if_pos ⟨hm, hthere⟩, Store.adopter?_eq_some.mpr howner]
  refine and_congr_left fun _ => ?_
  cases s.store.link? m with
  | none => simp
  | some q => simp

/-- While the value is made, the slot waits on. -/
theorem Waits.additions {s v : Session} {c : CellId} {p : Producer} {runs : Nat} {n : NodeId}
    {es : List NodeExpr} (h : s.Waits c p runs n es) (hv : (s.started c p).Additions v) :
    (v.store.cell? c).isSome ∧ v.store.published? c = none ∧
      v.store.owner? c = some ⟨n, .attached⟩ ∧ n < v.store.nodes.size ∧ v.verifies = true := by
  obtain ⟨finished, hcontent⟩ := h.content
  have hle : s.store.Le v.store := (s.changes_started c p).le.trans hv.grows.toLe
  obtain ⟨cell, hcell, hd⟩ := Option.map_eq_some_iff.mp hcontent
  obtain ⟨cell', hcell', hl⟩ := hle.cell hcell
  have hstarted : (s.started c p).store.content? c = some (.deferred p (runs + 1) finished none) := by
    rw [started_store, Store.content?_modifyContent, if_pos rfl, hcontent]
    rfl
  refine ⟨by simp [hcell'], ?_, ?_, h.there.trans_le hle.size_nodes, ?_⟩
  · rw [Store.published?_eq_content?, hv.grows.content? hstarted]
    rfl
  · have howner : cell.owner = some ⟨n, .attached⟩ := by
      have howner := h.owner
      rwa [Store.owner?, hcell] at howner
    rw [Store.owner?, hcell']
    exact hl.owner _ howner
  · exact hv.changes.verifies.trans ((s.started_names c p).2.trans h.verifies)

/-- A read of such a slot comes to a value that can be made and that may be published. -/
theorem Waits.readCell_eq_ok {s t : Session} {c : CellId} {p : Producer} {runs : Nat} {n : NodeId}
    {es : List NodeExpr} (h : s.Waits c p runs n es) {depth : Nat} {ops : List NodeId} :
    readCell (depth + 1) c s = (.ok ops, t) ↔ ∃ v, evalNodes es (s.started c p) = (.ok ops, v) ∧
      { v with held := s.held }.publicationViolation? c (runs + 1) ops = none ∧
        t = { v with held := s.held }.settle c (runs + 1) ops := by
  obtain ⟨finished, hcontent⟩ := h.content
  obtain ⟨cell, hcell, hd⟩ := Option.map_eq_some_iff.mp hcontent
  have hproduce : ∀ {candidate u}, produce depth p (runs + 1) (s.started c p) = (.ok candidate, u) ↔
      ∃ v, evalNodes es (s.started c p) = (.ok candidate, v) ∧ u = { v with held := s.held } := by
    intro candidate u
    rw [produce_eq_ok, h.value, (s.started_rest c p).2.2]
    constructor
    · rintro ⟨w, v, hw, heval, rfl⟩
      rw [prepare_eq h.once] at hw
      cases hw
      exact ⟨v, heval, rfl⟩
    · rintro ⟨v, heval, rfl⟩
      exact ⟨_, v, prepare_eq h.once _, heval, rfl⟩
  have hoffer : ∀ {candidate v}, evalNodes es (s.started c p) = (.ok candidate, v) →
      ((finishRun c (runs + 1) >>= fun _ => offer c (runs + 1) candidate) { v with held := s.held } =
        (.ok ops, t) ↔ ops = candidate ∧
          { v with held := s.held }.publicationViolation? c (runs + 1) candidate = none ∧
            t = { v with held := s.held }.settle c (runs + 1) candidate) := by
    intro candidate v heval
    obtain ⟨hthere, hnone, -⟩ := h.additions (additions_of_evalNodes heval)
    obtain ⟨cell', hcell'⟩ := Option.isSome_iff_exists.mp hthere
    have hnone' : ({ v with held := s.held } : Session).store.published? c = none := hnone
    rw [offer_eq_ok (s := { v with held := s.held }) hcell', hnone', Option.getD_none]
  rw [readCell_deferred hcell hd]
  constructor
  · intro hread
    obtain ⟨candidate, u, hmade, hrest⟩ := bind_eq_ok hread
    obtain ⟨v, heval, rfl⟩ := hproduce.mp hmade
    obtain ⟨rfl, hfits, rfl⟩ := (hoffer heval).mp hrest
    exact ⟨v, heval, hfits, rfl⟩
  · rintro ⟨v, heval, hfits, rfl⟩
    rw [bind_ok (hproduce.mpr ⟨v, heval, rfl⟩)]
    exact (hoffer heval).mpr ⟨rfl, hfits, rfl⟩

variable {us : List Use} {r u s t : Session}

/-- Values that may be published may be so where they are made again. -/
theorem Fitting.again (hr : Recurs us r u) (h : r.Mirrors u s t) {n : NodeId}
    (hn : n < r.store.nodes.size) {ops : List NodeId}
    (hstands : ∀ m ∈ ops, Stands us r .value s.store m)
    (hlink : ∀ id m, .value id ∈ us → r.node? id = some m → u.store.link? m = r.store.link? m)
    (hfit : s.Fitting n ops) : t.Fitting n (ops.map (r.again u)) := by
  intro m' hm'
  obtain ⟨m, hm, rfl⟩ := List.mem_map.mp hm'
  obtain ⟨hfree, hmodels⟩ := hfit m hm
  have hthere := (hstands m hm).there
  refine ⟨?_, ?_⟩
  · rcases (hstands m hm).origin with hnew | ⟨id, hid, hm⟩
    · rw [h.link? hthere hnew]
      refine hfree.imp (fun hnone => by rw [hnone]; rfl) fun hsome => ?_
      rw [hsome, Option.map_some, again_of_lt hn]
    · have hlt := hr.known _ hid id m rfl hm
      rw [again_of_lt hlt, h.right.link m (hlt.trans_le hr.size), hlink id m hid hm,
        ← h.left.link m hlt]
      exact hfree
  · have hagree := h.modelsAgree hr (hn.trans_le h.left.grows.toLe.size_nodes) hthere hmodels
    rwa [again_of_lt hn] at hagree

theorem Recurs.left (h : Recurs us r u) : Recurs us r r :=
  ⟨h.passive, fun hn => ⟨_, hn, .refl _⟩, rfl, fun _ _ _ _ => rfl, h.known, fun _ _ _ _ => rfl⟩

theorem Recurs.right (h : Recurs us r u) : Recurs us u u := by
  refine ⟨h.passive, fun hn => ⟨_, hn, .refl _⟩, rfl, fun _ _ _ _ => rfl, ?_, fun _ _ _ _ => rfl⟩
  intro use huse id n hid hn
  exact (h.known use huse id n hid ((h.named use huse id hid).symm.trans hn)).trans_le h.size

/-- What such a read makes, and what is published then. -/
theorem Waits.readCell_iff {c : CellId} {p : Producer} {runs : Nat} {n : NodeId} {es : List NodeExpr}
    (h : s.Waits c p runs n es) (hr : Recurs (nodesUses .value es) (s.started c p) (s.started c p))
    {depth : Nat} {ops : List NodeId} : readCell (depth + 1) c s = (.ok ops, t) ↔
      ∃ v, evalNodes es (s.started c p) = (.ok ops, v) ∧ v.Fitting n ops ∧
        t = { v with held := s.held }.settle c (runs + 1) ops := by
  rw [h.readCell_eq_ok]
  refine exists_congr fun v => and_congr_right fun heval => and_congr_left fun _ => ?_
  obtain ⟨-, hnone, howner, hn, hv⟩ := h.additions (additions_of_evalNodes heval)
  obtain ⟨-, -, -, hstands⟩ := evalNodes_again hr heval
  exact publicationViolation?_eq_none (s := { v with held := s.held }) hv howner hnone hn
    fun m hm => (hstands m hm).there

/-- A read that succeeds does so again where the slot waits once more. -/
theorem Waits.again {c : CellId} {p q : Producer} {runs k : Nat} {n : NodeId} {es : List NodeExpr}
    (hs : s.Waits c p runs n es) (ht : t.Waits c q k n es)
    (hr : Recurs (nodesUses .value es) (s.started c p) (t.started c q))
    (hlink : ∀ id m, .value id ∈ nodesUses .value es → s.node? id = some m →
      t.store.link? m = s.store.link? m) {depth : Nat} {ops : List NodeId} {s' : Session}
    (hread : readCell (depth + 1) c s = (.ok ops, s')) (depth' : Nat) :
    ∃ t', readCell (depth' + 1) c t = (.ok (ops.map ((s.started c p).again (t.started c q))), t') := by
  obtain ⟨v, heval, hfit, -⟩ := (hs.readCell_iff hr.left).mp hread
  obtain ⟨w, heval', hmirrors, hstands⟩ := evalNodes_again hr heval
  refine ⟨_, (ht.readCell_iff hr.right).mpr ⟨w, heval', ?_, rfl⟩⟩
  have hstart : n < (s.started c p).store.nodes.size := by
    rw [started_store]
    exact hs.there
  refine hfit.again hr hmirrors hstart hstands fun id m hid hm => ?_
  rw [started_store, started_store, Store.link?_modifyContent, Store.link?_modifyContent]
  refine hlink id m hid ?_
  rwa [node?, (s.started_rest c p).1] at hm

end Session
end BoundTree
