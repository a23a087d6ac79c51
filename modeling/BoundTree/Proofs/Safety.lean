import BoundTree.Proofs.Link
import BoundTree.Proofs.Ownership

/-!
Operations that can be come by are linked as they are held. An operation whose construction was stopped
by the check of its links stays in the store, and operations stay linked to it, but nothing ever refers
to it. Main statement: building keeps it so.
-/
namespace BoundTree

namespace Store

/-- The operation is there, and its children point at it. -/
structure Clean (s : Store) (p : NodeId) : Prop where
  there : (s.node? p).isSome
  linked : ∀ c ∈ s.heldBy .attached p, s.Linked p c

theorem Linked.mono {s t : Store} (h : s.Le t) {p c : NodeId} (hp : (s.node? p).isSome)
    (hl : s.Linked p c) : t.Linked p c := by
  refine ⟨h.link? hl.1, ?_⟩
  intro parent child hparent hchild
  obtain ⟨parent', hparent'⟩ := Option.isSome_iff_exists.mp hp
  obtain ⟨child', hchild', -⟩ := Option.bind_eq_some_iff.mp hl.1
  obtain ⟨_, hp', hple⟩ := h.node hparent'
  obtain ⟨_, hc', hcle⟩ := h.node hchild'
  cases hparent.symm.trans hp'
  cases hchild.symm.trans hc'
  rw [hple.kind, hcle.kind, hple.header, hcle.header]
  exact hl.2 parent' child' hparent' hchild'

/-- As long as its slots get no values, an operation stays clean. -/
theorem Clean.of_le {s t : Store} (h : s.Le t) {p : NodeId}
    (hcells : ∀ node, s.node? p = some node → ∀ c ∈ node.linkedCells,
      t.published? c.2 = s.published? c.2) (hp : s.Clean p) : t.Clean p := by
  obtain ⟨node, hnode⟩ := Option.isSome_iff_exists.mp hp.there
  obtain ⟨node', hnode', hle⟩ := h.node hnode
  have hheld : t.heldBy .attached p = s.heldBy .attached p := by
    simp only [heldBy, hnode, hnode', Option.elim_some, hle.linkedCells]
    exact heldIn_congr (hcells node hnode)
  refine ⟨by simp [hnode'], fun c hc => ?_⟩
  exact (hp.linked c (hheld ▸ hc)).mono h hp.there

end Store

namespace Session

/-- Slots belong to whom they should, and what leads to an operation leads to a clean one. -/
structure Sound (s : Session) (h : Holding) : Prop extends s.Owned h.cells where
  verifies : s.verifies = true
  clean : ∀ n, s.Mentions n ∨ n ∈ h.nodes → s.store.Clean n

/-- A session with the same store is sound as well, when it has no more slots by name and at hand, and
nothing leads further. -/
theorem Sound.transfer {s t : Session} {h h' : Holding} (hs : s.Sound h) (store : t.store = s.store)
    (verifies : t.verifies = s.verifies)
    (hcells : (h'.cells ++ t.slots.map (·.2)).Subperm (h.cells ++ s.slots.map (·.2)))
    (hnodes : ∀ n, t.Mentions n ∨ n ∈ h'.nodes → s.Mentions n ∨ n ∈ h.nodes) : t.Sound h' := by
  refine ⟨hs.toOwned.transfer store hcells, verifies.trans hs.verifies, ?_⟩
  rw [store]
  exact fun n hn => hs.clean n (hnodes n hn)

/-- What has been published is there. -/
theorem Sound.published_lt {s : Session} {h : Holding} (hs : s.Sound h) {c : CellId} {n : NodeId}
    {ops : List NodeId} (ho : s.store.published? c = some ops) (hn : n ∈ ops) :
    n < s.store.nodes.size := by
  obtain ⟨node, hnode⟩ := Option.isSome_iff_exists.mp (hs.clean n (.inl (.published ho hn))).there
  exact Store.node?_lt hnode

theorem Sound.mono {s : Session} {a b : Holding} (h : s.Sound b) (hab : a.Le b) : s.Sound a :=
  h.transfer rfl rfl ((List.subperm_append_right _).mpr hab.cells) fun _ hn => hn.imp_right (hab.nodes ·)

/-- A value was published over a link that is wrong. -/
def Broken (s : Session) : Prop := ∃ c v, Event.linkViolated (.publication c) v ∈ s.events

end Session

namespace Procedure

open Session

/-- From a sound session to a sound one, unless a value is published over a wrong link. -/
abbrev Safe {α : Type} : Holding → Procedure α → (α → Holding) → Prop :=
  Preserves Sound Broken

end Procedure

namespace Session

open Procedure

/-- What something leads to is at hand. -/
theorem Sound.recall {s : Session} {h : Holding} (hs : s.Sound h) {ns : List NodeId}
    (hn : ∀ n ∈ ns, s.Mentions n) : s.Sound (h ++ ⟨[], ns⟩) := by
  refine hs.transfer rfl rfl (by simp [List.Subperm.refl]) ?_
  rintro n (hm | hm)
  · exact .inl hm
  · exact (List.mem_append.mp hm).symm.imp_left (hn n)

/-- What is in use again is clean. -/
theorem Sound.restore {s u : Session} {h : Holding} (hu : u.Sound h) (hheld : s.heldNodes ⊆ h.nodes) :
    ({ u with held := s.held } : Session).Sound h := by
  refine hu.transfer rfl rfl (List.Subperm.refl _) ?_
  rintro n ((hn | hn | ⟨hc, hn⟩ | ⟨hm, hn⟩) | hn)
  · exact .inl (.bound hn)
  · exact .inr (hheld (mem_heldNodes.mpr hn))
  · exact .inl (.published hc hn)
  · exact .inl (.payload hm hn)
  · exact .inr hn

/-- What ends in the same store, with the same slots at hand, and leads to no operation that was not at
hand. -/
theorem safe_modify {f : Session → Session} {pre post : Holding} (hle : post.Le pre)
    (hstore : ∀ s, (f s).store = s.store) (hverifies : ∀ s, (f s).verifies = s.verifies)
    (hslots : ∀ s, (f s).slots = s.slots)
    (hmentions : ∀ s n, (f s).Mentions n → s.Mentions n ∨ n ∈ pre.nodes) :
    Safe pre (modify f) fun _ => post where
  ok {s t frame a} hs ht := by
    cases ht
    have hpre : (f s).Sound (pre ++ frame) := by
      refine hs.transfer (hstore s) (hverifies s) (by rw [hslots]) ?_
      rintro n (hn | hn)
      · exact (hmentions s n hn).imp_right fun h => List.mem_append_left _ h
      · exact .inr hn
    exact hpre.mono (hle.append_right frame)
  error _ ht := nomatch ht

theorem safe_hold (n : NodeId) : Safe ⟨[], [n]⟩ (hold (.node n)) fun _ => ⟨[], [n]⟩ :=
  safe_modify (.refl _) (fun _ => rfl) (fun _ => rfl) (fun _ => rfl) fun _ _ h =>
    (mentions_hold h).imp_right List.mem_singleton.mpr

theorem safe_bind (id : Option String) (n : NodeId) :
    Safe ⟨[], [n]⟩ (modify (·.bind id n)) fun _ => ⟨[], [n]⟩ :=
  safe_modify (.refl _) (fun s => (s.bind_store id n).1) (fun s => (s.bind_store id n).2.2)
    (fun s => by cases id <;> rfl) fun _ _ h => (mentions_bind h).imp_right List.mem_singleton.mpr

theorem safe_names {f : Session → Session} (hstore : ∀ s, (f s).store = s.store)
    (hverifies : ∀ s, (f s).verifies = s.verifies) (hslots : ∀ s, (f s).slots = s.slots)
    (hbindings : ∀ s, (f s).bindings ⊆ s.bindings) (hheld : ∀ s n, Holder.node n ∈ (f s).held →
      Holder.node n ∈ s.held) : Safe {} (modify f) fun _ => {} :=
  safe_modify (.refl _) hstore hverifies hslots fun s _ h =>
    .inl (h.of_subset (hstore s) (hbindings s) (hheld s))

/-! Building. -/

/-- Slots and operations that were there before keep what they have while others are added. -/
theorem Sound.clean_of_grows {s : Session} {h : Holding} (hs : s.Sound h) {t : Store}
    (hgrows : s.store.Grows t) {n : NodeId} (hn : s.store.Clean n) : t.Clean n := by
  refine hn.of_le hgrows.toLe fun node hnode c hc => ?_
  have howner := hs.owned n node hnode c hc
  obtain ⟨cell, hcell, -⟩ := Option.bind_eq_some_iff.mp howner
  exact hgrows.published? (by simp [hcell])

theorem safe_newCell (arity : Arity) (content : Content) :
    Safe ⟨[], content.published?.getD []⟩ (newCell arity content) fun c => ⟨[c], []⟩ where
  error _ ht := nomatch ht
  ok {s t frame c} hs ht := by
    have hmentions : ∀ n, (newCell arity content s).2.Mentions n →
        s.Mentions n ∨ n ∈ content.published?.getD [] := fun n => mentions_newCell
    rw [newCell_apply] at ht hmentions
    cases ht
    have hgrows := s.store.grows_addCell ⟨arity, content, none⟩
    refine ⟨hs.toOwned.addCell arity content, hs.verifies, fun n hn => ?_⟩
    refine hs.clean_of_grows hgrows (hs.clean n ?_)
    rcases hn with hn | hn
    · exact (hmentions n hn).imp_right fun hn => List.mem_append_left _ hn
    · exact .inr (List.mem_append_right _ hn)

theorem safe_takeSlot (arity : Arity) (name : String) :
    Safe {} (takeSlot arity name) fun c => ⟨[c], []⟩ := by
  have hmentions : ∀ (s : Session) held, (∀ n, Holder.node n ∈ held → Holder.node n ∈ s.held) →
      ∀ n, ({ s with slots := remove s.slots name, held } : Session).Mentions n → s.Mentions n :=
    fun s held hheld n h => h.of_subset rfl (List.Subset.refl _) hheld
  constructor
  · intro s t frame c hs ht
    rw [takeSlot_apply] at ht
    cases hl : lookup s.slots name with
    | none => simp [hl] at ht
    | some d =>
      simp only [hl] at ht
      split at ht
      · cases ht
        refine hs.transfer rfl rfl ?_ fun n hn => hn.imp_left (hmentions s _ (by simp) n)
        -- the slot that is taken is none of those that are left
        have htaken := subperm_remove hl
        simp only [Holding.cells_append, List.nil_append, List.singleton_append]
        exact (List.perm_middle.symm.subperm).trans ((List.subperm_append_left _).mpr htaken)
      · cases (Prod.mk.inj ht).1
  · intro s t frame f hs ht
    rw [takeSlot_apply] at ht
    split at ht
    · cases ht
      exact .inl (hs.mono ⟨List.nil_subperm, List.subset_append_right _ _⟩)
    · split at ht
      · cases (Prod.mk.inj ht).1
      · cases ht
        refine .inl (hs.transfer rfl rfl ?_ fun n hn => hn.imp (hmentions s _ (by simp) n) ?_)
        · exact ((List.filter_sublist.map _).subperm).trans (List.sublist_append_right _ _).subperm
        · exact fun h => List.mem_append_right _ h

/-- The slots at hand become those of the new operation. -/
theorem Sound.withOperation {s : Session} {header : Header} {payload : Payload} {cells : List CellId}
    {frame : Holding} (hs : s.Sound (⟨cells, payload.nodes⟩ ++ frame)) :
    (s.withOperation header payload cells).Sound frame := by
  have hgrows := s.store.grows_addOperation header payload cells
  refine ⟨hs.toOwned.withOperation hs.published_lt header payload, hs.verifies, fun n hn => ?_⟩
  refine hs.clean_of_grows hgrows (hs.clean n ?_)
  rcases hn with hn | hn
  · exact (mentions_withOperation hn).imp_right fun hn => List.mem_append_left _ hn
  · exact .inr (List.mem_append_right _ hn)

/-- A new operation whose check has passed is clean. -/
theorem Sound.clean_withOperation {s : Session} {header : Header} {payload : Payload}
    {cells : List CellId} {frame : Holding} (hs : s.verifies = true)
    (ht : (s.withOperation header payload cells).Sound frame)
    (hv : s.constructionViolation? header payload cells = none) :
    (s.withOperation header payload cells).store.Clean s.store.nodes.size := by
  let t := s.withOperation header payload cells
  have hsize : t.store.nodes.size = s.store.nodes.size + 1 := s.store.size_addOperation header payload cells
  refine ⟨Store.node?_isSome ((Nat.lt_succ_self _).trans_eq hsize.symm), fun c hc => ?_⟩
  obtain ⟨-, d, ops, -, -, hops, hmem⟩ := Store.mem_heldBy.mp hc
  have hthere := (ht.clean c (.inl (.published hops hmem))).there
  obtain ⟨child, hchild⟩ := Option.isSome_iff_exists.mp hthere
  have hle : c ≤ s.store.nodes.size := Nat.lt_succ_iff.mp ((Store.node?_lt hchild).trans_eq hsize)
  exact (constructionViolation?_eq_none.mp hv hs).1 c hc hle

theorem safe_construct (header : Header) (payload : Payload) (cells : List CellId) :
    Safe ⟨cells, payload.nodes⟩ (construct header payload cells) fun n => ⟨[], [n]⟩ where
  ok {s t frame n} hs ht := by
    obtain ⟨rfl, rfl, -, hv⟩ := construct_eq_ok ht
    have hsound : (s.withOperation header payload cells).Sound frame := hs.withOperation
    have hclean := hsound.clean_withOperation hs.verifies hv
    refine ⟨hsound.toOwned, hsound.verifies, ?_⟩
    rintro n (hn | hn)
    · exact hsound.clean n (.inl hn)
    · rcases List.mem_cons.mp hn with rfl | hn
      · exact hclean
      · exact hsound.clean n (.inr hn)
  error {s t frame f} hs ht := by
    have hle : (⟨[], frame.nodes⟩ : Holding).Le frame := ⟨List.nil_subperm, List.Subset.refl _⟩
    have hevents : ∀ {u : Session} {h : Holding} (es : List Event), u.Sound h →
        ({ u with events := es } : Session).Sound h := fun es hu =>
      hu.transfer rfl rfl (List.Subperm.refl _) fun n hn =>
        hn.imp_left fun h => h.congr rfl rfl rfl
    rw [construct_apply] at ht
    split at ht
    · cases ht
      exact .inl (hevents _ (hs.mono ⟨List.nil_subperm, List.subset_append_right _ _⟩))
    · split at ht
      · cases (Prod.mk.inj ht).1
      · cases ht
        exact .inl (hevents _ (hs.withOperation.mono hle))

theorem safe_intern (name : String) : Safe {} (intern name) fun _ => {} where
  ok {s t frame a} hs ht := by
    cases ht
    exact hs.transfer rfl rfl (List.Subperm.refl _) fun n hn => hn.imp_left fun h => h.congr rfl rfl rfl
  error _ ht := nomatch ht

/-- Building keeps the session sound. -/
theorem safe_logic : BuildLogic Safe where
  pure := .pure fun hs hle => hs.mono hle
  fail f := .fail (fun hs hle => hs.mono hle) f
  bind hx hf := hx.bind hf
  frame hx kept := hx.frame (fun hs hle => hs.mono hle) kept
  weaken hx hpre hpost := hx.weaken (fun hs hle => hs.mono hle) hpre hpost
  recalling ns hn _ hf := .recalling (fun hs hle => hs.mono hle) (fun hs hn => hs.recall hn) ns hn hf
  releasing hx := hx.releasing (fun hs hle => hs.mono hle) (fun hs hn => hs.recall hn)
    (fun hu hheld => hu.restore hheld) id
  hold := safe_hold
  bindName := safe_bind
  intern := safe_intern
  newCell arity content _ := safe_newCell arity content
  takeSlot := safe_takeSlot
  construct := safe_construct

end Session
end BoundTree
