import BoundTree.Proofs.Publication
import BoundTree.Proofs.Safety
import BoundTree.Proofs.TreeCheck

/-!
Links are sound. With the checks on, and as long as no value was published over a wrong link, every
operation that is alive is the parent of its children. Main statement: so it is in every session that
steps lead to, and a check of a tree that ends finds no child linked wrongly.
-/
namespace BoundTree

/-- Whether the violation is about a child and its parent. -/
def LinkViolation.isChildFault : LinkViolation → Bool
  | .wrongParent .. => true
  | .modelMismatch .. => true
  | .unexpectedParent .. => false
  | .sharedNode _ => false

namespace Session

open Procedure

/-! Values arrive. -/

theorem Sound.started {s : Session} {h : Holding} (hs : s.Sound h) (c : CellId) (p : Producer) :
    (s.started c p).Sound h := by
  have hle := (s.changes_started c p).le
  have hpublished : ∀ d, (s.started c p).store.published? d = s.store.published? d := by
    rw [started_store]
    exact Store.published?_modifyContent_of (by simp) _ _
  refine ⟨hs.toOwned.started c p, (s.started_names c p).2.trans hs.verifies, fun n hn => ?_⟩
  exact (hs.clean n (hn.imp_left mentions_started)).of_le hle fun _ _ c _ => hpublished c.2

/-- A value that is published over no wrong link, or dropped, leaves the session sound. -/
theorem Sound.settle {s : Session} {h : Holding} (hs : s.Sound h) {c : CellId} {run : Nat}
    {candidate : List NodeId} (hcandidate : candidate ⊆ h.nodes)
    (hv : s.publicationViolation? c run candidate = none) : (s.settle c run candidate).Sound h := by
  have hle := s.le_settle c run candidate
  have hverifies := (s.settle_names c run candidate).2.1
  have hthere : ∀ n ∈ candidate, (s.store.node? n).isSome := fun n hn =>
    (hs.clean n (.inr (hcandidate hn))).there
  have howned := hs.toOwned.settle c run fun n hn =>
    Store.node?_lt (Option.isSome_iff_exists.mp (hthere n hn)).choose_spec
  refine ⟨howned, hverifies.trans hs.verifies, fun n hn => ?_⟩
  have hclean : s.store.Clean n := by
    refine hs.clean n (hn.elim (fun hn => ?_) .inr)
    exact (mentions_settle hn).imp_right (hcandidate ·)
  obtain ⟨owner, howner⟩ := Option.isSome_iff_exists.mp hclean.there
  obtain ⟨owner', howner', hownerLe⟩ := hle.node howner
  refine ⟨by simp [howner'], fun m hm => ?_⟩
  obtain ⟨node, d, ops, hnode, hd, hops, hmem⟩ := Store.mem_heldBy.mp hm
  cases howner'.symm.trans hnode
  rw [hownerLe.linkedCells] at hd
  rcases published?_of_settle hops with hops | ⟨rfl, hnone, rfl⟩
  · have hlinked : s.store.Linked n m :=
      hclean.linked m (Store.mem_heldBy.mpr ⟨owner, d, ops, howner, hd, hops, hmem⟩)
    exact hlinked.mono hle hclean.there
  · -- what is published now has been checked
    obtain ⟨child, hchild⟩ := Option.isSome_iff_exists.mp (hthere m hmem)
    obtain ⟨child', hchild', -⟩ := hle.node hchild
    unfold publicationViolation? at hv
    rw [hnone, hs.owned n owner howner _ hd] at hv
    dsimp only at hv
    rw [if_pos hs.verifies] at hv
    have hcheck := List.findSome?_eq_none_iff.mp hv m hmem
    rw [checkLink_attached] at hcheck
    exact (childFault?_eq_none howner' hchild').mp hcheck

/-! Reading. -/

theorem safe_readCell {depth : Nat} (h : ∀ p run, Safe {} (produce depth p run) fun ops => ⟨[], ops⟩)
    (c : CellId) : Safe {} (readCell (depth + 1) c) fun ops => ⟨[], ops⟩ := by
  have hresult : ∀ {s t : Session} {frame : Holding} {r : Except Fault (List NodeId)},
      s.Sound ({} ++ frame) → readCell (depth + 1) c s = (r, t) →
        (∀ ops, r = .ok ops → t.Sound (⟨[], ops⟩ ++ frame)) ∧
          ∀ f, r = .error f → t.Sound ⟨[], frame.nodes⟩ ∨ t.Broken := by
    intro s t frame r hs ht
    have hdrop : ∀ {u : Session}, u.Sound ({} ++ frame) → u.Sound ⟨[], frame.nodes⟩ := fun hu =>
      hu.mono ⟨List.nil_subperm, List.subset_append_right _ _⟩
    have hswap : ∀ (a : Holding) (ops : List NodeId),
        (⟨[], ops⟩ ++ frame : Holding).Le (a ++ frame ++ ⟨[], ops⟩) := by
      intro a ops
      refine ⟨by simpa using (List.sublist_append_right a.cells frame.cells).subperm, fun n hn => ?_⟩
      simp only [Holding.nodes_append, List.mem_append] at hn ⊢
      tauto
    cases readsTo_of_readCell ht with
    | missing _ => exact ⟨fun ops hr => (nomatch hr), fun f _ => .inl (hdrop hs)⟩
    | published ho =>
      refine ⟨fun ops hr => ?_, fun f hr => nomatch hr⟩
      cases hr
      exact (hs.recall fun n hn => .published ho hn).mono (hswap {} _)
    | failed _ hx => exact ⟨fun ops hr => (nomatch hr), fun _ _ => (h _ _).error (hs.started c _) hx⟩
    | settled _ hx hv ho =>
      refine ⟨fun ops hr => ?_, fun f hr => nomatch hr⟩
      cases hr
      have hu := (h _ _).ok (hs.started c _) hx
      exact ((hu.settle (List.subset_append_left _ _) hv).recall fun n hn => .published ho hn).mono
        (hswap _ _)
    | refused _ _ _ => exact ⟨fun ops hr => (nomatch hr), fun f _ => .inr ⟨c, _, List.mem_cons_self⟩⟩
  exact ⟨fun hs ht => (hresult hs ht).1 _ rfl, fun hs ht => (hresult hs ht).2 _ rfl⟩

/-! Steps. -/

/-- A slot at hand gets a name, and whatever had the name before is lost. -/
theorem safe_nameSlot (name : String) (c : CellId) :
    Safe ⟨[c], []⟩ (modify fun s => { s with slots := (name, c) :: remove s.slots name })
      fun _ => {} where
  ok {s t frame a} hs ht := by
    cases ht
    refine hs.transfer rfl rfl ?_ fun n hn => hn.imp (fun h => ?_) id
    · have hremove : ((remove s.slots name).map (·.2)).Sublist (s.slots.map (·.2)) :=
        List.filter_sublist.map _
      simp only [Holding.cells_append, List.nil_append, List.map_cons, List.singleton_append]
      exact List.perm_middle.subperm.trans ((hremove.append_left _).cons_cons c).subperm
    · exact h.of_subset rfl (List.Subset.refl _) fun _ h => h
  error _ ht := nomatch ht

/-- Every step keeps the session sound, unless it publishes a value over a wrong link. -/
theorem safe_steps : StepLogic Safe where
  toBuildLogic := safe_logic
  producing hx := .mapFault _ hx
  readCell _ c h := safe_readCell h c
  warn _ _ := safe_names (fun _ => rfl) (fun _ => rfl) (fun _ => rfl)
    (fun _ => List.Subset.refl _) fun _ _ h => h
  holdCell c := safe_names (fun _ => rfl) (fun _ => rfl) (fun _ => rfl)
    (fun _ => List.Subset.refl _) fun s n h => by simpa using h
  dropName id := safe_names (fun _ => rfl) (fun _ => rfl) (fun _ => rfl)
    (fun _ => List.filter_subset_self _) fun _ _ h => h
  nameSlot := safe_nameSlot

theorem sound_start : (start true).Sound {} where
  toOwned := (orderly_start true).toOwned
  verifies := rfl
  clean n hn := by
    rcases hn with (h | h | ⟨h, hn⟩ | ⟨h, hn⟩) | h
    · simp [start] at h
    · simp [start] at h
    · simp [start, Store.published?, Store.cell?] at h
    · simp [start, Store.node?] at h
    · simp at h

/-- Every session that steps lead to is sound, unless a value was published over a wrong link. -/
theorem Reached.sound {s : Session} (h : Reached true s) : s.Sound {} ∨ s.Broken := by
  induction h with
  | start => exact .inl sound_start
  | @step s h e ih =>
    rcases ih with hs | ⟨c, v, hv⟩
    · have hsafe := safe_steps.perform e
      have hs : s.Sound ({} ++ {}) := hs
      have hstep : (s.step e).session = (perform e s).2 := rfl
      rw [hstep]
      rcases hx : perform e s with ⟨f | a, t⟩
      · exact hsafe.error hs hx
      · exact .inl (hsafe.ok hs hx)
    · exact .inr ⟨c, v, (changes_step s e).events.subset hv⟩

/-! Checking a tree. -/

theorem producerFault_cases (f : Fault) :
    producerFault f = .exhausted ∨ ∃ p, producerFault f = .panicked p := by
  cases f with
  | exhausted => exact .inl rfl
  | _ => exact .inr ⟨_, rfl⟩

/-- Where a slot is, only a panic keeps a read of it from its end. -/
theorem operations_panics {c : CellId} {s t : Session} {f : Fault}
    (hc : (s.store.cell? c).isSome) (h : operations c s = (.error f, t)) : ∃ p, f = .panicked p := by
  have hends := (operations_ends c s).1
  rw [h] at hends
  cases ho : s.store.published? c with
  | some ops =>
    rw [operations_published ho] at h
    cases h
  | none =>
    rw [operations_unpublished ho] at h
    cases readsTo_of_readCell h with
    | missing hnone => simp [hnone] at hc
    | failed _ hx =>
      rw [produce, mapFault_apply] at hx
      obtain ⟨hg, -⟩ := Prod.mk.inj hx
      obtain ⟨g, -, rfl⟩ := mapError_eq_error hg
      rcases producerFault_cases g with he | hp
      · exact absurd (congrArg _ he) hends
      · exact hp
    | refused _ _ _ => exact ⟨_, rfl⟩

/-- A sweep that has reached clean operations only, and found no child at fault. -/
structure Sweep.Sound (w : Sweep) (s : Session) : Prop where
  sound : s.Sound ⟨[], w.seen⟩
  nodup : w.seen.Nodup
  pending : w.pending ⊆ w.seen
  found : ∀ v ∈ w.found, v.isChildFault = false

theorem Sweep.Sound.visit {w : Sweep} {s : Session} (h : w.Sound s) {n c : NodeId} {l : Linkage}
    (hn : n ∈ w.seen) (hc : s.Mentions c) (hl : l = .attached → s.store.Linked n c) :
    (w.visit s n l c).Sound s := by
  obtain ⟨owner, howner⟩ := Option.isSome_iff_exists.mp (h.sound.clean n (.inr hn)).there
  obtain ⟨child, hchild⟩ := Option.isSome_iff_exists.mp (h.sound.clean c (.inl hc)).there
  have hreach : ∀ {w : Sweep}, w.Sound s → (w.reach s c).Sound s := by
    intro w hw
    unfold Sweep.reach
    split
    · have hfacts : s.linkFacts? c = some ⟨child.kind, child.header.model⟩ := by
        simp [linkFacts?, hchild]
      rw [hfacts]
      refine ⟨hw.sound, hw.nodup, hw.pending, fun v hv => ?_⟩
      rcases List.mem_cons.mp hv with rfl | hv
      · rfl
      · exact hw.found v hv
    · next hnew =>
      have hrecall : s.Sound (⟨[], w.seen⟩ ++ ⟨[], [c]⟩) := hw.sound.recall fun m hm => by
        rw [List.mem_singleton.mp hm]
        exact hc
      refine ⟨hrecall.mono ⟨List.Subperm.refl _, fun m hm => ?_⟩,
        List.nodup_cons.mpr ⟨hnew, hw.nodup⟩, List.cons_subset_cons c hw.pending, hw.found⟩
      rcases List.mem_cons.mp hm with rfl | hm
      · exact List.mem_append_right _ (List.mem_singleton.mpr rfl)
      · exact List.mem_append_left _ hm
  unfold Sweep.visit
  cases l with
  | attached =>
    rw [checkLink_attached, (childFault?_eq_none howner hchild).mpr (hl rfl)]
    exact hreach h
  | detached =>
    rw [checkLink_detached]
    cases hv : s.valueFault? n c with
    | none => exact h
    | some v =>
      refine ⟨h.sound, h.nodup, h.pending, fun v' hv' => ?_⟩
      rcases List.mem_cons.mp hv' with rfl | hv'
      · simp only [valueFault?, howner, hchild, Option.bind_eq_bind, Option.bind_some] at hv
        split at hv <;> cases hv
        rfl
      · exact h.found v' hv'

/-- What a sweep has reached stays reached, and what it reaches anew is pending. -/
structure Sweep.Extends (w w' : Sweep) : Prop where
  seen : w.seen ⊆ w'.seen
  length : w'.seen.length + w.pending.length = w.seen.length + w'.pending.length

theorem Sweep.Extends.refl (w : Sweep) : w.Extends w := ⟨List.Subset.refl _, rfl⟩

theorem Sweep.Extends.trans {w w' w'' : Sweep} (h : w.Extends w') (k : w'.Extends w'') :
    w.Extends w'' := by
  refine ⟨List.Subset.trans h.seen k.seen, ?_⟩
  have h₁ := h.length
  have h₂ := k.length
  omega

theorem Sweep.visitAll_extends (w : Sweep) (s : Session) (owner : NodeId)
    (ns : List (Linkage × NodeId)) : w.Extends (w.visitAll s owner ns) := by
  obtain ⟨new, hseen, hpending, -⟩ := w.visitAll_new s owner ns
  refine ⟨?_, ?_⟩
  · rw [hseen]
    exact List.subset_append_right _ _
  · rw [hseen, hpending]
    simp only [List.length_append]
    omega

theorem Sweep.Sound.visitAll {w : Sweep} {s : Session} (h : w.Sound s) {n : NodeId} (hn : n ∈ w.seen)
    {ns : List (Linkage × NodeId)} (hns : ∀ m ∈ ns, s.Mentions m.2 ∧
      (m.1 = .attached → s.store.Linked n m.2)) : (w.visitAll s n ns).Sound s := by
  induction ns generalizing w with
  | nil => exact h
  | cons m ns ih =>
    obtain ⟨hm, hl⟩ := hns m List.mem_cons_self
    obtain ⟨new, hseen, -, -⟩ := w.visit_new s n m.1 m.2
    refine ih (h.visit hn hm hl) ?_ fun m' hm' => hns m' (List.mem_cons_of_mem _ hm')
    rw [hseen]
    exact List.mem_append_right _ hn

/-- The slots of an operation that was reached: each of them can be read, unless a panic stops the
sweep, and what they hold is linked to the operation. -/
theorem sweepSlots_sound {n : NodeId} (cells : List (Linkage × CellId)) {w : Sweep} {s : Session}
    (hw : w.Sound s) (hn : n ∈ w.seen)
    (hcells : ∀ c ∈ cells, ∃ node, s.store.node? n = some node ∧ c ∈ node.linkedCells) :
    (∃ p t, sweepSlots n cells w s = (.error (.panicked p), t)) ∨
      ∃ w' t, sweepSlots n cells w s = (.ok w', t) ∧ w'.Sound t ∧ w.Extends w' ∧
        t.store.extent ≤ s.store.extent := by
  induction cells generalizing w s with
  | nil => exact .inr ⟨w, s, rfl, hw, .refl w, le_rfl⟩
  | cons c cells ih =>
    obtain ⟨l, c⟩ := c
    obtain ⟨node, hnode, hc⟩ := hcells _ List.mem_cons_self
    have hthere : (s.store.cell? c).isSome := by
      obtain ⟨cell, hcell, -⟩ := Option.bind_eq_some_iff.mp (hw.sound.owned n node hnode _ hc)
      simp [hcell]
    rw [sweepSlots_cons]
    rcases hx : operations c s with ⟨f | ops, t⟩
    · obtain ⟨p, rfl⟩ := operations_panics hthere hx
      exact .inl ⟨p, t, bind_error hx⟩
    · rw [bind_ok hx, bind_ok (read_apply t)]
      have hextent := (operations_ends c s).2 ops t hx
      have hchanges : s.Changes t := (changing_logic.operations c).reaches hx
      have hread : t.Sound (⟨[], ops⟩ ++ ⟨[], w.seen⟩) := (safe_steps.operations c).ok hw.sound hx
      have ht : t.Sound ⟨[], w.seen⟩ :=
        hread.mono ⟨List.Subperm.refl _, List.subset_append_right _ _⟩
      have hpublished : t.store.published? c = some ops := IsRead.published? (.inl hx.symm)
      obtain ⟨node', hnode', hle⟩ := hchanges.le.node hnode
      have hwt : w.Sound t := ⟨ht, hw.nodup, hw.pending, hw.found⟩
      have hops : ∀ m ∈ ops.map (l, ·), t.Mentions m.2 ∧ (m.1 = .attached → t.store.Linked n m.2) := by
        intro m hm
        obtain ⟨k, hk, rfl⟩ := List.mem_map.mp hm
        refine ⟨.published hpublished hk, fun hl => (ht.clean n (.inr hn)).linked k ?_⟩
        have hl : l = .attached := hl
        refine Store.mem_heldBy.mpr ⟨node', c, ops, hnode', ?_, hpublished, hk⟩
        rw [hle.linkedCells, ← hl]
        exact hc
      have hextends := w.visitAll_extends t n (ops.map (l, ·))
      rcases ih (hwt.visitAll hn hops) (hextends.seen hn) (fun d hd => by
        obtain ⟨_, hnode₁, hd₁⟩ := hcells d (List.mem_cons_of_mem _ hd)
        cases hnode.symm.trans hnode₁
        exact ⟨node', hnode', by rw [hle.linkedCells]; exact hd₁⟩) with hpanic | ⟨w', u, hu, hw', he, hle'⟩
      · exact .inl hpanic
      · exact .inr ⟨w', u, hu, hw', hextends.trans he, hle'.trans hextent⟩

/-- A sweep comes to its end, unless a panic stops it: what the store can hold and has not been reached
bounds the steps that are left. -/
theorem sweep_sound (steps : Nat) {w : Sweep} {s : Session} (hw : w.Sound s)
    (hsteps : s.store.extent + w.pending.length < steps + w.seen.length) :
    (∃ p t, sweep steps w s = (.error (.panicked p), t)) ∨
      ∃ w' t, sweep steps w s = (.ok w', t) ∧ ∀ v ∈ w'.found, v.isChildFault = false := by
  induction steps generalizing w s with
  | zero =>
    have hsub : w.seen ⊆ List.range s.store.nodes.size := by
      intro n hn
      obtain ⟨node, hnode⟩ := Option.isSome_iff_exists.mp (hw.sound.clean n (.inr hn)).there
      exact List.mem_range.mpr (Store.node?_lt hnode)
    have hle := (List.subperm_of_subset hw.nodup hsub).length_le
    have hextent : s.store.nodes.size ≤ s.store.extent := Nat.le_add_right _ _
    rw [List.length_range] at hle
    omega
  | succ steps ih =>
    cases hp : w.pending with
    | nil => exact .inr ⟨w, s, sweep_done hp steps s, hw.found⟩
    | cons n pending =>
      have hn : n ∈ w.seen := hw.pending (by simp [hp])
      obtain ⟨node, hnode⟩ := Option.isSome_iff_exists.mp (hw.sound.clean n (.inr hn)).there
      have hrest : ({ w with pending } : Sweep).Sound s := by
        refine ⟨hw.sound, hw.nodup, fun m hm => hw.pending ?_, hw.found⟩
        rw [hp]
        exact List.mem_cons_of_mem _ hm
      rw [sweep_next hp hnode]
      rcases sweepSlots_sound node.linkedCells hrest hn fun c hc => ⟨node, hnode, hc⟩ with
        ⟨p, t, ht⟩ | ⟨w', t, ht, hw', he, hextent⟩
      · exact .inl ⟨p, t, bind_error ht⟩
      · rw [bind_ok ht]
        refine ih hw' ?_
        have hlength := he.length
        dsimp only at hlength
        rw [hp, List.length_cons] at hsteps
        omega

/-- Checking the tree below an operation that is clean. -/
theorem verifyTree_sound {s : Session} {n : NodeId} (hs : s.Sound ⟨[], [n]⟩) :
    (∃ p t, verifyTree n s = (.error (.panicked p), t)) ∨
      ∃ vs t, verifyTree n s = (.ok vs, t) ∧ ∀ v ∈ vs, v.isChildFault = false := by
  have hstart : (⟨[n], [n], []⟩ : Sweep).Sound s :=
    ⟨hs, List.nodup_singleton n, List.Subset.refl _, by simp⟩
  have hbudget := s.store.extent_le_budget
  rcases sweep_sound (s.store.budget + 2) hstart (by simp only [List.length_singleton]; omega) with
    ⟨p, t, ht⟩ | ⟨w, t, ht, hfound⟩
  · refine .inl ⟨p, t, ?_⟩
    unfold verifyTree
    rw [bind_ok (read_apply s), bind_error ht]
  · have hend : ∃ u, verifyTree n s = (.ok w.found.reverse, u) := by
      unfold verifyTree
      rw [bind_ok (read_apply s), bind_ok ht]
      by_cases hnil : w.found.reverse.isEmpty
      · exact ⟨t, by simp [hnil]⟩
      · cases hfacts : t.linkFacts? n with
        | none => exact ⟨t, by simp only [hnil]; simp [bind_apply, hfacts]⟩
        | some root => exact ⟨_, by simp only [hnil]; simp [bind_apply, hfacts]; rfl⟩
    obtain ⟨u, hu⟩ := hend
    exact .inr ⟨_, u, hu, fun v hv => hfound v (by simpa using hv)⟩

/-- With the checks on, and as long as no value was published over a wrong link: what an operation that
is alive holds as its child points at it and belongs to it, no operation is a child of two that are
alive, and checking the tree below an operation that is alive ends with no child at fault, unless a panic
ends it. -/
theorem links_sound {s : Session} (h : Reached true s)
    (hp : ∀ c v, Event.linkViolated (.publication c) v ∉ s.events) :
    (∀ p, s.isAlive p = true → ∀ c ∈ s.store.heldBy .attached p,
      s.store.link? c = some p ∧ s.parent? c = some p ∧ s.store.ModelsAgree p c) ∧
    (∀ p q c, s.isAlive p = true → s.isAlive q = true → c ∈ s.store.heldBy .attached p →
      c ∈ s.store.heldBy .attached q → p = q) ∧
    ∀ n, s.isAlive n = true →
      (∃ p t, verifyTree n s = (.error (.panicked p), t)) ∨
        ∃ vs t, verifyTree n s = (.ok vs, t) ∧ ∀ v ∈ vs, v.isChildFault = false := by
  have hsound : s.Sound {} := h.sound.resolve_right fun ⟨c, v, hv⟩ => hp c v hv
  have hclean : ∀ p, s.isAlive p = true → s.store.Clean p := fun p hp =>
    hsound.clean p (.inl (mentions_of_isAlive hp))
  refine ⟨fun p hp c hc => ?_, fun p q c hp hq hcp hcq => ?_, fun n hn => ?_⟩
  · obtain ⟨hlink, hagree⟩ := (hclean p hp).linked c hc
    refine ⟨hlink, ?_, hagree⟩
    obtain ⟨child, hchild, hparent⟩ := Option.bind_eq_some_iff.mp hlink
    simp [parent?, hchild, hparent, hp]
  · have hp := ((hclean p hp).linked c hcp).1
    have hq := ((hclean q hq).linked c hcq).1
    exact Option.some.inj (hp.symm.trans hq)
  · have hrecall : s.Sound ({} ++ ⟨[], [n]⟩) := hsound.recall fun m hm => by
      rw [List.mem_singleton.mp hm]
      exact mentions_of_isAlive hn
    exact verifyTree_sound hrecall

/-- A block whose child is built when the children are first asked for. -/
def lateChild : Session :=
  let header : Header := { locus := ⟨⟨0⟩, Span.make 0 0⟩ }
  let locals : List AttributeExpr := [.value (.handles .localVar [])]
  (start true).after
    [.build (.build (.mk (some "b") header .block none
      [.deferred (.mk none none [.build (.mk none header .block none [.filled []] locals)] [])] locals)),
      .ask "b" (.children none)]

theorem links_sound_lateChild :
    (∀ c v, Event.linkViolated (.publication c) v ∉ lateChild.events) ∧
      lateChild.store.link? 1 = some 0 := by
  have hp : ∀ c v, Event.linkViolated (.publication c) v ∉ lateChild.events := by
    have hevents : lateChild.events = [.published 0 1 (some .block) 1] := by decide +kernel
    simp [hevents]
  refine ⟨hp, ?_⟩
  have halive : lateChild.isAlive 0 = true := by decide +kernel
  have hheld : 1 ∈ lateChild.store.heldBy .attached 0 := by decide +kernel
  exact ((links_sound (Reached.start.after _) hp).1 0 halive 1 hheld).1

end Session
end BoundTree
