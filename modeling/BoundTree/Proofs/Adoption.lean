import BoundTree.Proofs.LinkSoundness
import BoundTree.Proofs.Observation
import BoundTree.Proofs.Presence

/-!
Where links come from. Main statement: an operation that has a link is in a child slot of the one it
points at, or a value for such a slot came too late.
-/
namespace BoundTree

namespace Store

/-- A slot belongs to the operation that installed it first. -/
theorem owner?_installAll_eq_some {s : Store} {owner : NodeId} {cells : List (Linkage × CellId)}
    {c : CellId} {o : Owner} (h : (s.installAll owner cells).owner? c = some o) :
    s.owner? c = some o ∨ o.node = owner ∧ (o.linkage, c) ∈ cells := by
  induction cells generalizing s with
  | nil => exact .inl h
  | cons d cs ih =>
    have hstep : s.installAll owner (d :: cs) = (s.install owner d.1 d.2).installAll owner cs := rfl
    rw [hstep] at h
    rcases ih h with h | ⟨hn, hc⟩
    · rw [install_eq, owner?_own, owner?_linkAll, owner?_linkAll] at h
      split at h
      · next hd =>
        cases ho : s.owner? d.2 with
        | some o' =>
          rw [ho] at h
          rw [hd.1, ho]
          exact .inl h
        | none =>
          rw [ho] at h
          cases h
          exact .inr ⟨rfl, by rw [hd.1]; exact List.mem_cons_self⟩
      · exact .inl h
    · exact .inr ⟨hn, List.mem_cons_of_mem _ hc⟩

end Store

namespace Session

open Procedure

/-- A value for the slot came after another one had been published. -/
def Dropped (s : Session) (c : CellId) : Prop := ∃ run, (run, none) ∈ s.reports c

/-- The operation is in a value for a child slot of the other one: in the published value, or, for all
that is known, in one that was dropped. -/
def Takes (s : Session) (p : NodeId) (c : CellId) (n : NodeId) : Prop :=
  (∃ node, s.store.node? p = some node ∧ (.attached, c) ∈ node.linkedCells) ∧
    (n ∈ (s.store.published? c).getD [] ∨ s.Dropped c)

/-- The record of owners is right, and every link has an origin. -/
structure Adopted (s : Session) : Prop where
  owner : ∀ {c o}, s.store.owner? c = some o →
    ∃ node, s.store.node? o.node = some node ∧ (o.linkage, c) ∈ node.linkedCells
  link : ∀ {n p}, s.store.link? n = some p → ∃ c, s.Takes p c n

/-- What an operation links is among its children, unless a value for a lazy slot of it was dropped. -/
theorem Adopted.heldBy_or_dropped {s : Session} (hs : s.Adopted) {n p : NodeId}
    (h : s.store.link? n = some p) : n ∈ s.store.heldBy .attached p ∨
      ∃ node c, s.store.node? p = some node ∧ (.attached, c) ∈ node.linkedCells ∧ s.Dropped c := by
  obtain ⟨c, ⟨node, hnode, hc⟩, hn | hdropped⟩ := hs.link h
  · refine .inl (Store.mem_heldBy.mpr ?_)
    cases ho : s.store.published? c with
    | none => simp [ho] at hn
    | some ops => exact ⟨node, c, ops, hnode, hc, ho, by simpa [ho] using hn⟩
  · exact .inr ⟨node, c, hnode, hc, hdropped⟩

theorem Takes.changes {s t : Session} (h : s.Changes t) {p n : NodeId} {c : CellId}
    (ht : s.Takes p c n) : t.Takes p c n := by
  obtain ⟨⟨node, hnode, hc⟩, hn⟩ := ht
  obtain ⟨node', hnode', hle⟩ := h.le.node hnode
  refine ⟨⟨node', hnode', hle.linkedCells ▸ hc⟩, hn.imp (fun hn => ?_) fun ⟨run, hr⟩ => ⟨run, ?_⟩⟩
  · cases ho : s.store.published? c with
    | none => simp [ho] at hn
    | some ops =>
      rw [h.le.published? ho]
      simpa [ho] using hn
  · exact (h.events.sublist.filterMap _).subset hr

theorem owned_of_le {s t : Session} (h : s.store.Le t.store) {o : Owner} {c : CellId}
    (ho : ∃ node, s.store.node? o.node = some node ∧ (o.linkage, c) ∈ node.linkedCells) :
    ∃ node, t.store.node? o.node = some node ∧ (o.linkage, c) ∈ node.linkedCells := by
  obtain ⟨node, hnode, hc⟩ := ho
  obtain ⟨node', hnode', hle⟩ := h.node hnode
  exact ⟨node', hnode', hle.linkedCells ▸ hc⟩

/-- What sets no link and no owner. -/
theorem Adopted.of_change {s t : Session} (hs : s.Adopted) (h : s.Change t)
    (howner : ∀ c, t.store.owner? c = s.store.owner? c)
    (hlink : ∀ n, t.store.link? n = s.store.link? n) : t.Adopted := by
  refine ⟨fun {c o} ho => owned_of_le h.le (hs.owner ((howner c).symm.trans ho)), fun {n p} hn => ?_⟩
  obtain ⟨c, hc⟩ := hs.link ((hlink n).symm.trans hn)
  exact ⟨c, hc.changes (.single h)⟩

theorem Adopted.addOperation {s : Session} (hs : s.Adopted) {header : Header} {payload : Payload}
    (cells : List CellId) (he : payload.error? header = none) :
    (s.withOperation header payload cells).Adopted := by
  have hchange : s.Change (s.withOperation header payload cells) :=
    .adds (.addOperation s cells he)
  let node : Node := ⟨header, payload, cells, none⟩
  let u := (s.store.addNode node).2
  have hstore : (s.withOperation header payload cells).store =
      u.installAll s.store.nodes.size node.linkedCells := rfl
  obtain ⟨node', hnode', hle⟩ : ∃ node', (s.withOperation header payload cells).store.node?
      s.store.nodes.size = some node' ∧ node.Le node' := by
    have hnew : u.node? s.store.nodes.size = some node := by
      simp only [u, Store.node?_addNode, if_true]
    exact (Store.grows_installAll u s.store.nodes.size node.linkedCells).toLe.node hnew
  constructor
  · intro c o ho
    rw [hstore] at ho
    rcases Store.owner?_installAll_eq_some ho with ho | ⟨hn, hc⟩
    · exact owned_of_le hchange.le (hs.owner ho)
    · rw [hn]
      exact ⟨node', hnode', hle.linkedCells ▸ hc⟩
  · intro n p hn
    have hkeep : s.store.link? n = some p →
        ∃ c, (s.withOperation header payload cells).Takes p c n := fun hp =>
      (hs.link hp).imp fun c hc => hc.changes (.single hchange)
    rw [Session.withOperation, Store.link?_addOperation] at hn
    split at hn
    · next hin =>
      cases hq : s.store.link? n with
      | some q =>
        rw [hq] at hn
        exact hkeep (hq.trans hn)
      | none =>
        -- the new operation holds what it links
        rw [hq] at hn
        cases hn
        obtain ⟨c, ops, hc, ho, hmem⟩ := Store.mem_heldIn.mp hin.1
        have ho' : (s.withOperation header payload cells).store.published? c = some ops :=
          (s.store.published?_addOperation header payload cells c).trans ho
        exact ⟨c, ⟨node', hnode', hle.linkedCells ▸ hc⟩, .inl (by simpa [ho'] using hmem)⟩
    · exact hkeep hn

theorem Adopted.settle {s : Session} (hs : s.Adopted) {c : CellId} {cell : Cell} (run : Nat)
    (candidate : List NodeId) (hc : s.store.cell? c = some cell) (hd : cell.content.isDeferred) :
    (s.settle c run candidate).Adopted := by
  have hchange : s.Change (s.settle c run candidate) := .settle run candidate hc hd
  refine ⟨fun {d o} ho => owned_of_le hchange.le (hs.owner ?_), fun {n p} hn => ?_⟩
  · exact (s.owner?_settle c run candidate d).symm.trans ho
  have hkeep : s.store.link? n = some p → ∃ d, (s.settle c run candidate).Takes p d n := fun hp =>
    (hs.link hp).imp fun d hd => hd.changes (.single hchange)
  rw [link?_settle] at hn
  split at hn
  · next hin =>
    cases hq : s.store.link? n with
    | some q =>
      rw [hq] at hn
      exact hkeep (hq.trans hn)
    | none =>
      -- the owner of the slot links the value that comes
      rw [hq] at hn
      have ho : s.store.owner? c = some ⟨p, .attached⟩ := Store.adopter?_eq_some.mp hn
      refine ⟨c, owned_of_le hchange.le (hs.owner ho), ?_⟩
      have hcontent : s.store.content? c = some cell.content := by simp [Store.content?, hc]
      cases hp : s.store.published? c with
      | none =>
        refine .inl ?_
        have hcell : cell.content.published? = none := by
          simpa [Store.published?_eq_content?, hcontent] using hp
        rw [Store.published?_eq_content?, content?_settle, if_pos rfl, hcontent]
        simpa [hcell] using hin.1
      | some ops =>
        refine .inr ⟨run, ?_⟩
        rw [reports_settle, if_pos rfl, hp]
        exact List.mem_cons_self
  · exact hkeep hn

theorem Change.adopted {s t : Session} (h : s.Change t) (hs : s.Adopted) : t.Adopted := by
  cases h with
  | adds h =>
    cases h with
    | names store events verifies =>
      exact hs.of_change (.adds (.names store events verifies)) (fun _ => by rw [store]) fun _ => by
        rw [store]
    | report h => exact hs.of_change (.adds (.report s h)) (fun _ => rfl) fun _ => rfl
    | addCell arity h =>
      exact hs.of_change (.adds (.addCell s arity h)) (Store.owner?_addCell _ _ _) fun _ => rfl
    | addOperation cells h => exact hs.addOperation cells h
  | startRun c =>
    exact hs.of_change (.startRun s c) (Store.owner?_modifyContent _ _ _) fun _ => rfl
  | settle run candidate hc hd => exact hs.settle run candidate hc hd

theorem adopted_start (verifies : Bool) : (start verifies).Adopted :=
  ⟨fun ho => by simp [start, Store.owner?, Store.cell?] at ho,
    fun hn => by simp [start, Store.link?, Store.node?] at hn⟩

/-- Every link has an origin, whatever failed on the way. -/
theorem Reached.adopted {verifies : Bool} {s : Session} (h : Reached verifies s) : s.Adopted :=
  h.holds (adopted_start verifies) Change.adopted

/-- With the checks on, a run in which no check stopped a step leads to a sound session. -/
theorem sound_after {steps : List Step} (h : ∀ o ∈ (start true).run steps, o.breaksLink = false) :
    ((start true).after steps).Sound {} := by
  refine (Reached.start.after steps).sound.resolve_right fun ⟨c, v, hv⟩ => ?_
  have hnone : ((start true).after steps).events.filter Event.isLinkViolation = [] := after_events h
  have hmem : Event.linkViolated (.publication c) v ∈
      ((start true).after steps).events.filter Event.isLinkViolation := List.mem_filter.mpr ⟨hv, rfl⟩
  simp [hnone] at hmem

end Session
end BoundTree
