import BoundTree.Proofs.Adoption
import BoundTree.Proofs.Rereading

/-!
What remains of a run. Of what was there before, a run changes the slot and the links of its value only.
Main statement: after it nothing is in use but what was there before, and what the value keeps alive.
-/
namespace BoundTree.Session

open Procedure

variable {us : List Use} {r u s t : Session} {c : CellId} {p : Producer} {n : NodeId}
  {es : List NodeExpr} {ops : List NodeId}

/-! Moments of a run. -/

/-- A moment of a run with the checks on, at which nothing refers to what is not there. -/
structure Moment (s : Session) : Prop where
  changes : (start true).Changes s
  present : s.Present
  held : ∀ d, .cell d ∈ s.held → d < s.store.cells.size

/-- The session while these operations are in use. -/
def holding (s : Session) (ns : List NodeId) : Session := { s with held := ns.map .node }

theorem Reached.moment (h : Reached true s) {ns : List NodeId} (hns : ∀ n ∈ ns, n < s.store.nodes.size) :
    (s.holding ns).Moment := by
  have hchanges : (Session.start true).Changes s := h.holds .refl fun hc h => h.tail hc
  refine ⟨hchanges.trans (Changes.names rfl rfl rfl), ?_, fun d hd => ?_⟩
  · refine h.present.transfer rfl (fun _ hb => h.present.slot hb) ?_
    rintro n (hn | hn | ⟨ho, hn⟩ | ⟨hm, hn⟩)
    · exact h.present.node (.bound hn)
    · obtain ⟨m, hm, heq⟩ : ∃ m ∈ ns, Holder.node m = .node n := List.mem_map.mp hn
      cases heq
      exact hns _ hm
    · exact h.present.node (.published ho hn)
    · exact h.present.node (.payload hm hn)
  · obtain ⟨m, -, heq⟩ := List.mem_map.mp hd
    cases heq

/-! What a read leaves alone. -/

/-- Of what was there, nothing has changed but this slot and the links of these operations. -/
structure Touches (s t : Session) (c : CellId) (ops : List NodeId) : Prop where
  le : s.store.Le t.store
  link : ∀ m < s.store.nodes.size, m ∉ ops → t.store.link? m = s.store.link? m
  published : ∀ d < s.store.cells.size, d ≠ c → t.store.published? d = s.store.published? d
  young : t.store.Young s.store.nodes.size s.store.cells.size
  bindings : t.bindings = s.bindings
  slots : t.slots = s.slots
  held : t.held = s.held

theorem Touches.mono (h : s.Touches t c []) (ops : List NodeId) : s.Touches t c ops :=
  { h with link := fun m hm _ => h.link m hm List.not_mem_nil }

theorem Touches.trans (h : s.Touches t c ops) (k : t.Touches u c ops) (hc : c < s.store.cells.size) :
    s.Touches u c ops := by
  have hnodes := h.le.size_nodes
  have hcells := h.le.size_cells
  refine ⟨h.le.trans k.le, fun m hm hn => (k.link m (hm.trans_le hnodes) hn).trans (h.link m hm hn),
    fun d hd hne => (k.published d (hd.trans_le hcells) hne).trans (h.published d hd hne), ⟨?_, ?_⟩,
    k.bindings.trans h.bindings, k.slots.trans h.slots, k.held.trans h.held⟩
  · intro m node' hm hle d hd
    by_cases hlt : m < t.store.nodes.size
    · obtain ⟨node, hnode⟩ := Option.isSome_iff_exists.mp (Store.node?_isSome hlt)
      obtain ⟨x, hx, hl⟩ := k.le.node hnode
      cases hm.symm.trans hx
      exact h.young.slot hnode hle d (hl.cells ▸ hd)
    · exact hcells.trans (k.young.slot hm (Nat.not_lt.mp hlt) d hd)
  · intro d b hb hle hdeferred
    by_cases hlt : d < t.store.cells.size
    · have hcell : t.store.cell? d = some t.store.cells[d] := Array.getElem?_eq_getElem hlt
      obtain ⟨cell', hcell', hl⟩ := k.le.cell hcell
      have hb' : cell'.content = b := by simpa [Store.content?, hcell'] using hb
      have hbefore : t.store.published? d = none := by
        rw [Store.published?, hcell]
        exact h.young.content (by simp [Store.content?, hcell]) hle
          (by rw [← hl.content.isDeferred, hb', hdeferred])
      have hafter := k.published d hlt (hc.trans_le hle).ne'
      rwa [hbefore, Store.published?_eq_content?, hb] at hafter
    · exact k.young.content hb (Nat.not_lt.mp hlt) hdeferred

/-- Changing what one slot holds gives no slot content that had none. -/
theorem content?_lt_of_changed {s : Store} {c d : CellId} {f : Content → Content} {a : Content}
    (h : (if d = c then (s.content? c).map f else s.content? d) = some a) : d < s.cells.size := by
  split at h
  · next heq =>
    obtain ⟨b, hb, -⟩ := Option.map_eq_some_iff.mp h
    exact heq ▸ Store.content?_lt hb
  · exact Store.content?_lt h

theorem touches_started (s : Session) (c : CellId) (p : Producer) : s.Touches (s.started c p) c [] := by
  refine ⟨(s.changes_started c p).le, fun m _ _ => by rw [started_store, Store.link?_modifyContent],
    fun d _ hd => ?_, young_of_lt (fun hm => ?_) fun {d a} ha => ?_, (s.started_rest c p).1,
    (s.started_rest c p).2.1, (s.started_rest c p).2.2⟩
  · rw [started_store, Store.published?_modifyContent_of (by simp)]
  · rw [started_store] at hm
    exact Store.node?_lt hm
  · rw [started_store, Store.content?_modifyContent] at ha
    exact content?_lt_of_changed ha

theorem Spares.touches (h : s.Spares t) (c : CellId) : s.Touches { t with held := s.held } c [] :=
  ⟨h.grows.toLe, fun m hm _ => h.link m hm, fun d hd _ => h.grows.published? (by simp [Store.cell?, hd]),
    h.young, h.bindings, h.slots, rfl⟩

theorem touches_settle (s : Session) (c : CellId) (run : Nat) (candidate : List NodeId) :
    s.Touches (s.settle c run candidate) c candidate := by
  obtain ⟨-, -, hbindings, hslots, hheld⟩ := s.settle_names c run candidate
  refine ⟨s.le_settle c run candidate, fun m _ hm => ?_, fun d _ hd => ?_,
    young_of_lt (fun hm => ?_) fun {d a} ha => ?_, hbindings, hslots, hheld⟩
  · rw [link?_settle, if_neg fun h => hm h.1]
  · rw [Store.published?_eq_content?, content?_settle, if_neg hd, Store.published?_eq_content?]
  · rw [node?_settle, Store.node?_receive] at hm
    obtain ⟨node, hnode, -⟩ := Option.map_eq_some_iff.mp hm
    exact Store.node?_lt hnode
  · rw [content?_settle] at ha
    exact content?_lt_of_changed ha

/-- A run whose value is put in place or dropped. -/
theorem touches_run (hr : Recurs (nodesUses .value es) s s) (hc : c < s.store.cells.size)
    (heval : evalNodes es s = (.ok ops, t)) (run : Nat) :
    s.Touches ({ t with held := s.held }.settle c run ops) c ops := by
  obtain ⟨_, -, hmirrors, -⟩ := evalNodes_again hr heval
  exact ((hmirrors.left.touches c).mono ops).trans (touches_settle _ c run ops) hc

theorem Additions.reports (h : s.Additions t) (c : CellId) : t.reports c = s.reports c := by
  induction h with
  | refl => rfl
  | tail _ hadd ih =>
    rw [← ih]
    cases hadd with
    | names store events verifies => rw [Session.reports, Session.reports, events]
    | report h => simp [Session.reports, Event.report?_eq_none h]
    | addCell => rfl
    | addOperation => rfl

theorem started_reports (s : Session) (c : CellId) (p : Producer) (d : CellId) :
    (s.started c p).reports d = s.reports d := by
  unfold started
  cases p.counter <;> rfl

/-- The value of a run has been put in place, and nothing else that was there has changed. -/
structure Publishes (s t : Session) (c : CellId) (n : NodeId) (run : Nat) (ops : List NodeId) : Prop where
  touches : s.Touches t c ops
  link : ∀ m ∈ ops, t.store.link? m = some n
  published : t.store.published? c = some ops
  reports : t.reports c = (run, some ops.length) :: s.reports c

theorem Waits.publishes {runs : Nat} (h : s.Waits c p runs n es)
    (hr : Recurs (nodesUses .value es) (s.started c p) (s.started c p)) {depth : Nat}
    (hread : readCell (depth + 1) c s = (.ok ops, t)) : s.Publishes t c n (runs + 1) ops := by
  have hpublished := published?_of_readCell hread
  obtain ⟨v, heval, hfit, rfl⟩ := (h.readCell_iff hr).mp hread
  obtain ⟨finished, hcontent⟩ := h.content
  have hc : c < s.store.cells.size := Store.content?_lt hcontent
  have hstarted := touches_started s c p
  have hrun := touches_run hr (hc.trans_le hstarted.le.size_cells) heval (runs + 1)
  rw [hstarted.held] at hrun
  have hadds := additions_of_evalNodes heval
  obtain ⟨-, hnone, howner, -⟩ := h.additions hadds
  obtain ⟨-, -, -, hstands⟩ := evalNodes_again hr heval
  refine ⟨(hstarted.mono ops).trans hrun hc, fun m hm => ?_, hpublished, ?_⟩
  · rw [link?_settle, if_pos ⟨hm, Store.node?_isSome (hstands m hm).there⟩, Store.adopter?_eq_some.mpr howner]
    change (v.store.link? m <|> some n) = some n
    rcases (hfit m hm).1 with hlink | hlink <;> rw [hlink] <;> rfl
  · have hsame : ({ v with held := s.held } : Session).reports c = s.reports c :=
      (hadds.reports c).trans (started_reports s c p c)
    have hnone' : ({ v with held := s.held } : Session).store.published? c = none := hnone
    rw [reports_settle, if_pos rfl, hsame, hnone']
    rfl

/-! What is still in use. -/

/-- The operation is one of the others, or one of these keeps it alive. -/
def Reaches (x : Store) (ops : List NodeId) (n : NodeId) : Prop :=
  ∃ k ∈ ops, Relation.ReflTransGen (fun a b => b ∈ x.holds a) k n

theorem mem_holds {x : Store} {k m : NodeId} : m ∈ x.holds k ↔ ∃ node, x.node? k = some node ∧
    ((∃ c ∈ node.cells, ∃ ops, x.published? c = some ops ∧ m ∈ ops) ∨ m ∈ node.payload.nodes) := by
  unfold Store.holds
  cases x.node? k with
  | none => simp
  | some node =>
    simp only [List.mem_append, List.mem_flatMap, Option.some.injEq, exists_eq_left']
    refine or_congr_left (exists_congr fun c => and_congr_right fun _ => ?_)
    cases x.published? c <;> simp

/-- New operations keep only older ones alive. -/
theorem Present.lt_of_mem_holds (ht : t.Present) {nodes cells : Nat} (young : t.store.Young nodes cells)
    {k m : NodeId} (hk : nodes ≤ k) (hm : m ∈ t.store.holds k) : m < k := by
  obtain ⟨node, hnode, ⟨c, hc, ops, ho, hm⟩ | hm⟩ := mem_holds.mp hm
  · rw [Store.published?_eq_content?] at ho
    obtain ⟨a, ha, ho⟩ := Option.bind_eq_some_iff.mp ho
    cases a with
    | filled ops' =>
      cases ho
      exact ht.filled hnode hc ha hm
    | deferred =>
      rw [young.content ha (young.slot hnode hk c hc) rfl] at ho
      cases ho
  · exact ht.payload hnode hm

/-- What slots hold that were there before was there before, or is the value. -/
theorem Touches.of_mem_published (h : s.Touches t c ops) (hs : s.Moment)
    (hvalue : ∀ ops', t.store.published? c = some ops' → s.store.published? c = some ops' ∨ ops' = ops)
    {d : CellId} (hd : d < s.store.cells.size) (hn : n ∈ (t.store.published? d).getD []) :
    n < s.store.nodes.size ∨ Reaches t.store ops n := by
  cases ho : t.store.published? d with
  | none => simp [ho] at hn
  | some ops' =>
    rw [ho, Option.getD_some] at hn
    have hbefore : s.store.published? d = some ops' ∨ ops' = ops := by
      by_cases heq : d = c
      · exact heq ▸ hvalue ops' (heq ▸ ho)
      · exact .inl ((h.published d hd heq).symm.trans ho)
    rcases hbefore with ho | rfl
    · exact .inl (hs.present.node (.published ho hn))
    · exact .inr ⟨n, hn, .refl⟩

theorem Touches.of_mem_roots (h : s.Touches t c ops) (hs : s.Moment)
    (hvalue : ∀ ops', t.store.published? c = some ops' → s.store.published? c = some ops' ∨ ops' = ops)
    (hn : n ∈ t.roots) : n < s.store.nodes.size ∨ Reaches t.store ops n := by
  rcases List.mem_append.mp hn with hn | hn
  · rcases List.mem_append.mp hn with hn | hn
    · obtain ⟨b, hb, rfl⟩ := List.mem_map.mp hn
      exact .inl (hs.present.node (.bound (h.bindings ▸ hb)))
    · obtain ⟨b, hb, hn⟩ := List.mem_flatMap.mp hn
      exact h.of_mem_published hs hvalue (hs.present.slot (h.slots ▸ hb)) hn
  · obtain ⟨holder, hholder, hn⟩ := List.mem_flatMap.mp hn
    rw [h.held] at hholder
    cases holder with
    | node m =>
      rw [List.mem_singleton.mp hn]
      exact .inl (hs.present.node (.held hholder))
    | cell d => exact h.of_mem_published hs hvalue (hs.held d hholder) hn

/-- What an operation keeps alive that was there before was there before, or is the value. -/
theorem Touches.of_mem_holds (h : s.Touches t c ops) (hs : s.Moment)
    (hvalue : ∀ ops', t.store.published? c = some ops' → s.store.published? c = some ops' ∨ ops' = ops)
    {k : NodeId} (hk : k < s.store.nodes.size) (hn : n ∈ t.store.holds k) :
    n < s.store.nodes.size ∨ Reaches t.store ops n := by
  obtain ⟨node, hnode⟩ := Option.isSome_iff_exists.mp (Store.node?_isSome hk)
  obtain ⟨node', hnode', hl⟩ := h.le.node hnode
  obtain ⟨x, hx, hn⟩ := mem_holds.mp hn
  cases hnode'.symm.trans hx
  rcases hn with ⟨d, hd, ops', ho, hn⟩ | hn
  · exact h.of_mem_published hs hvalue (hs.present.cell hnode (hl.cells ▸ hd)) (by simpa [ho] using hn)
  · exact .inl ((hs.present.payload hnode (hl.payload ▸ hn)).trans hk)

/-- What is alive was there before, or is below the value that the slot has got since. -/
theorem Touches.lt_or_reaches (h : s.Touches t c ops) (hs : s.Moment) (ht : t.Present)
    (hvalue : ∀ ops', t.store.published? c = some ops' → s.store.published? c = some ops' ∨ ops' = ops)
    (halive : t.isAlive n = true) : n < s.store.nodes.size ∨ Reaches t.store ops n := by
  obtain ⟨P, hPn, hP⟩ := Store.isAlive_iff.mp halive
  -- the youngest first: what keeps a new operation alive is younger, or was there before
  suffices hall : ∀ k m, P m → t.store.nodes.size ≤ m + k →
      m < s.store.nodes.size ∨ Reaches t.store ops m from
    hall t.store.nodes.size n hPn (Nat.le_add_left _ _)
  intro k
  induction k with
  | zero => exact fun m hm hle => absurd (hP m hm).1 (Nat.not_lt.mpr hle)
  | succ k ih =>
    intro m hm hk
    rcases (hP m hm).2 with hroot | ⟨q, hq, hmq⟩
    · exact h.of_mem_roots hs hvalue hroot
    · by_cases hold : q < s.store.nodes.size
      · exact h.of_mem_holds hs hvalue hold hmq
      · have hlt : m < q := ht.lt_of_mem_holds h.young (Nat.not_lt.mp hold) hmq
        have hle : t.store.nodes.size ≤ q + k :=
          hk.trans ((Nat.add_right_comm m k 1).le.trans (Nat.add_le_add_right hlt k))
        rcases ih q hq hle with hq | ⟨o, ho, hpath⟩
        · exact absurd hq hold
        · exact .inr ⟨o, ho, hpath.tail hmq⟩

end BoundTree.Session
