import BoundTree.Proofs.Presence

/-!
Whose a slot is. A slot of an operation belongs to it alone, and a slot that is at hand or has a name
belongs to none yet. Main statement: so it is in every session that steps lead to, whether links are
checked or not and whatever failed, and what an operation holds as its child has a parent.
-/
namespace BoundTree

namespace Session

/-- The operations that are in use. -/
def heldNodes (s : Session) : List NodeId :=
  s.held.filterMap fun
    | .node n => some n
    | .cell _ => none

theorem mem_heldNodes {s : Session} {n : NodeId} : n ∈ s.heldNodes ↔ Holder.node n ∈ s.held := by
  simp only [heldNodes, List.mem_filterMap]
  constructor
  · rintro ⟨_ | _, hmem, h⟩ <;> cases h
    exact hmem
  · exact fun h => ⟨_, h, rfl⟩

end Session

namespace Procedure

open Session

variable {α β : Type} {I : Session → Holding → Prop} {B : Session → Prop}
  {pre : Holding} {x : Procedure α} {post : α → Holding}

/-- From a session in order, with so much at hand, the procedure leads to one in order, with so much at
hand if it succeeds; whatever else was at hand before still is, but for slots if it fails. Only in a way
of its own can it end otherwise. -/
structure Preserves (I : Session → Holding → Prop) (B : Session → Prop) (pre : Holding)
    (x : Procedure α) (post : α → Holding) : Prop where
  ok : ∀ {s t : Session} {frame : Holding} {a : α}, I s (pre ++ frame) → x s = (.ok a, t) →
    I t (post a ++ frame)
  error : ∀ {s t : Session} {frame : Holding} {f : Fault}, I s (pre ++ frame) →
    x s = (.error f, t) → I t ⟨[], frame.nodes⟩ ∨ B t

/-- What is at hand may be left lying. -/
def Antitone (I : Session → Holding → Prop) : Prop :=
  ∀ {s : Session} {a b : Holding}, I s b → a.Le b → I s a

namespace Preserves

theorem pure (mono : Antitone I) {a : α} (h : (post a).Le pre) :
    Preserves I B pre (Pure.pure a) post where
  ok hs ht := by
    cases ht
    exact mono hs (h.append_right _)
  error _ ht := nomatch ht

theorem fail (mono : Antitone I) (f : Fault) : Preserves I B pre (fail f) post where
  ok _ ht := nomatch ht
  error hs ht := by
    cases ht
    exact .inl (mono hs ⟨List.nil_subperm, List.subset_append_right _ _⟩)

theorem bind {mid : α → Holding} {f : α → Procedure β} {post : β → Holding}
    (hx : Preserves I B pre x mid) (hf : ∀ a, Preserves I B (mid a) (f a) post) :
    Preserves I B pre (x >>= f) post where
  ok hs ht := by
    obtain ⟨a, u, hu, ht⟩ := bind_eq_ok ht
    exact (hf a).ok (hx.ok hs hu) ht
  error {s _ _ _} hs ht := by
    rcases hr : x s with ⟨e | a, u⟩
    · rw [bind_error hr] at ht
      cases ht
      exact hx.error hs hr
    · rw [bind_ok hr] at ht
      exact (hf a).error (hx.ok hs hr) ht

theorem frame (mono : Antitone I) (h : Preserves I B pre x post) (kept : Holding) :
    Preserves I B (pre ++ kept) x fun a => post a ++ kept where
  ok hs ht := by
    rw [Holding.append_assoc] at hs ⊢
    exact h.ok hs ht
  error hs ht := by
    rw [Holding.append_assoc] at hs
    rcases h.error hs ht with ht | ht
    · exact .inl (mono ht ⟨List.Subperm.refl _, List.subset_append_right _ _⟩)
    · exact .inr ht

theorem weaken (mono : Antitone I) {pre' : Holding} {post' : α → Holding}
    (h : Preserves I B pre x post) (hpre : pre.Le pre') (hpost : ∀ a, (post' a).Le (post a)) :
    Preserves I B pre' x post' where
  ok {_ _ frame a} hs ht :=
    mono (h.ok (mono hs (hpre.append_right frame)) ht) ((hpost a).append_right frame)
  error {_ _ frame _} hs ht := h.error (mono hs (hpre.append_right frame)) ht

theorem mapFault (f : Fault → Fault) (h : Preserves I B pre x post) :
    Preserves I B pre (mapFault f x) post where
  ok {s _ _ _} hs ht := by
    rw [mapFault_apply] at ht
    rcases hr : x s with ⟨e | a, u⟩ <;> rw [hr] at ht <;> cases ht
    exact h.ok hs hr
  error {s _ _ _} hs ht := by
    rw [mapFault_apply] at ht
    rcases hr : x s with ⟨e | a, u⟩ <;> rw [hr] at ht <;> cases ht
    exact h.error hs hr

/-- What the session leads to is at hand from then on. -/
theorem recalling (mono : Antitone I)
    (hrecall : ∀ {s : Session} {h : Holding} {ns : List NodeId}, I s h → (∀ n ∈ ns, s.Mentions n) →
      I s (h ++ ⟨[], ns⟩))
    {f : Session → Procedure α} (ns : Session → List NodeId) (hn : ∀ s n, n ∈ ns s → s.Mentions n)
    (hf : ∀ s, Preserves I B (pre ++ ⟨[], ns s⟩) (f s) post) : Preserves I B pre (read >>= f) post := by
  have hwith : ∀ {s : Session} {frame : Holding}, I s (pre ++ frame) →
      I s (pre ++ ⟨[], ns s⟩ ++ frame) := by
    intro s frame hs
    refine mono (hrecall hs (hn s)) ⟨by simp [List.Subperm.refl], ?_⟩
    intro n hn
    simp only [Holding.nodes_append, List.mem_append] at hn ⊢
    tauto
  exact ⟨fun {s _ _ _} hs ht => (hf s).ok (hwith hs) ht,
    fun {s _ _ _} hs ht => (hf s).error (hwith hs) ht⟩

/-- What was in use before is in use again. -/
theorem releasing (mono : Antitone I)
    (hrecall : ∀ {s : Session} {h : Holding} {ns : List NodeId}, I s h → (∀ n ∈ ns, s.Mentions n) →
      I s (h ++ ⟨[], ns⟩))
    (hrestore : ∀ {s u : Session} {h : Holding}, I u h → s.heldNodes ⊆ h.nodes →
      I { u with held := s.held } h)
    (hother : ∀ {s u : Session}, B u → B { u with held := s.held })
    (h : Preserves I B pre x post) : Preserves I B pre (releasing x) post := by
  -- the operations that were in use are kept at hand meanwhile
  have hkept : ∀ {s : Session} {frame : Holding}, I s (pre ++ frame) →
      I s (pre ++ (frame ++ ⟨[], s.heldNodes⟩)) := by
    intro s frame hs
    rw [← Holding.append_assoc]
    exact hrecall hs fun n hn => .held (mem_heldNodes.mp hn)
  constructor
  · intro s t frame a hs ht
    rw [releasing_apply] at ht
    obtain ⟨hr, rfl⟩ := Prod.mk.inj ht
    have hu := h.ok (t := (x s).2) (hkept hs) (Prod.ext hr rfl)
    refine mono (hrestore hu ?_) ?_
    · exact fun n hn => by simp [hn]
    · rw [← Holding.append_assoc]
      exact ⟨by simp [List.Subperm.refl], List.subset_append_left _ _⟩
  · intro s t frame f hs ht
    rw [releasing_apply] at ht
    obtain ⟨hr, rfl⟩ := Prod.mk.inj ht
    refine (h.error (t := (x s).2) (hkept hs) (Prod.ext hr rfl)).imp (fun hu => ?_) hother
    refine mono (hrestore hu ?_) ⟨List.Subperm.refl _, List.subset_append_left _ _⟩
    exact fun n hn => by simp [hn]

end Preserves
end Procedure

namespace Session

open Procedure

/-- Slots belong to one operation, as one slot of it, and those at hand to none; and what is held as a
child has a parent. -/
structure Owned (s : Session) (cells : List CellId) : Prop where
  owned : ∀ p node, s.store.node? p = some node → ∀ c ∈ node.linkedCells,
    s.store.owner? c.2 = some ⟨p, c.1⟩
  distinct : ∀ p node, s.store.node? p = some node → node.cells.Nodup
  nodup : (cells ++ s.slots.map (·.2)).Nodup
  unowned : ∀ c ∈ cells ++ s.slots.map (·.2), (s.store.cell? c).isSome ∧ s.store.owner? c = none
  linked : ∀ p, ∀ n ∈ s.store.heldBy .attached p, (s.store.link? n).isSome

variable {s t : Session} {cells cells' : List CellId}

/-- A session with the same store, and no more slots by name and at hand. -/
theorem Owned.transfer (hs : s.Owned cells) (store : t.store = s.store)
    (hcells : (cells' ++ t.slots.map (·.2)).Subperm (cells ++ s.slots.map (·.2))) :
    t.Owned cells' := by
  refine ⟨?_, ?_, ?_, ?_, ?_⟩
  · rw [store]
    exact hs.owned
  · rw [store]
    exact hs.distinct
  · obtain ⟨l, hl, hsub⟩ := hcells
    exact hl.nodup_iff.mp (hsub.nodup hs.nodup)
  · rw [store]
    exact fun c hc => hs.unowned c (hcells.subset hc)
  · rw [store]
    exact hs.linked

/-- A slot of an operation is there. -/
theorem Owned.cell (hs : s.Owned cells) {p : NodeId} {node : Node}
    (hp : s.store.node? p = some node) {c : Linkage × CellId} (hc : c ∈ node.linkedCells) :
    (s.store.cell? c.2).isSome := by
  obtain ⟨cell, hcell, -⟩ := Option.bind_eq_some_iff.mp (hs.owned p node hp c hc)
  simp [hcell]

/-- Operations that were there keep what they have, and their children the parents that they have. -/
theorem Owned.linked_of_le (hs : s.Owned cells) (hle : s.store.Le t.store) {p n : NodeId} {node : Node}
    (hp : s.store.node? p = some node)
    (hcells : ∀ c ∈ node.linkedCells, t.store.published? c.2 = s.store.published? c.2)
    (hn : n ∈ t.store.heldBy .attached p) : (t.store.link? n).isSome := by
  obtain ⟨node', hp', hnode⟩ := hle.node hp
  have hheld : t.store.heldBy .attached p = s.store.heldBy .attached p := by
    simp only [Store.heldBy, hp, hp', Option.elim_some, hnode.linkedCells]
    exact Store.heldIn_congr hcells
  obtain ⟨q, hq⟩ := Option.isSome_iff_exists.mp (hs.linked p n (hheld ▸ hn))
  exact Option.isSome_iff_exists.mpr ⟨q, hle.link? hq⟩

/-- Slots at hand and by name stay there and belong to none, as long as no other owners come. -/
theorem Owned.unowned_of_le (hs : s.Owned cells) (hle : s.store.Le t.store) {c : CellId}
    (hc : c ∈ cells ++ s.slots.map (·.2)) (howner : t.store.owner? c = s.store.owner? c) :
    (t.store.cell? c).isSome ∧ t.store.owner? c = none := by
  obtain ⟨hthere, hnone⟩ := hs.unowned c hc
  obtain ⟨cell, hcell⟩ := Option.isSome_iff_exists.mp hthere
  obtain ⟨cell', hcell', -⟩ := hle.cell hcell
  exact ⟨Option.isSome_iff_exists.mpr ⟨cell', hcell'⟩, howner.trans hnone⟩

/-- Links and runs matter to no owner. -/
theorem Owned.relink (hs : s.Owned cells) (hle : s.store.Le t.store)
    (hnode : ∀ {p node'}, t.store.node? p = some node' →
      ∃ node, s.store.node? p = some node ∧ node.Le node')
    (howner : ∀ c, t.store.owner? c = s.store.owner? c)
    (hpublished : ∀ c, t.store.published? c = s.store.published? c)
    (hslots : t.slots = s.slots) : t.Owned cells := by
  refine ⟨?_, ?_, hslots ▸ hs.nodup, ?_, ?_⟩
  · intro p node' hp c hc
    obtain ⟨node, hnode, hle⟩ := hnode hp
    rw [hle.linkedCells] at hc
    exact (howner c.2).trans (hs.owned p node hnode c hc)
  · intro p node' hp
    obtain ⟨node, hnode, hle⟩ := hnode hp
    exact hle.cells ▸ hs.distinct p node hnode
  · intro c hc
    exact hs.unowned_of_le hle (hslots ▸ hc) (howner c)
  · intro p n hn
    obtain ⟨parent', d, ops, hp', -, -, -⟩ := Store.mem_heldBy.mp hn
    obtain ⟨parent, hp, -⟩ := hnode hp'
    exact hs.linked_of_le hle hp (fun c _ => hpublished c.2) hn

/-! Building. -/

theorem Owned.addCell (hs : s.Owned cells) (arity : Arity) (content : Content) {held : List Holder} :
    ({ s with store := (s.store.addCell ⟨arity, content, none⟩).2, held } : Session).Owned
      (s.store.cells.size :: cells) := by
  have hgrows := s.store.grows_addCell ⟨arity, content, none⟩
  have howner := s.store.owner?_addCell arity content
  refine ⟨fun p node hp c hc => (howner c.2).trans (hs.owned p node hp c hc), hs.distinct, ?_, ?_, ?_⟩
  · refine List.nodup_cons.mpr ⟨fun hmem => ?_, hs.nodup⟩
    obtain ⟨cell, hcell⟩ := Option.isSome_iff_exists.mp (hs.unowned _ hmem).1
    exact (Store.cell?_lt hcell).ne rfl
  · intro c hc
    rcases List.mem_cons.mp hc with rfl | hc
    · refine ⟨by simp [Store.cell?_addCell], (howner _).trans ?_⟩
      simp [Store.owner?, Store.cell?]
    · exact hs.unowned_of_le hgrows.toLe hc (howner c)
  · intro p n hn
    obtain ⟨node, d, ops, hp, -, -, -⟩ := Store.mem_heldBy.mp hn
    exact hs.linked_of_le hgrows.toLe hp (fun c hc => hgrows.published? (hs.cell hp hc)) hn

/-- The slots at hand become those of the new operation. -/
theorem Owned.withOperation {frame : List CellId} (hs : s.Owned (cells ++ frame))
    (hthere : ∀ {c ops n}, s.store.published? c = some ops → n ∈ ops → n < s.store.nodes.size)
    (header : Header) (payload : Payload) : (s.withOperation header payload cells).Owned frame := by
  let node : Node := ⟨header, payload, cells, none⟩
  let u := (s.store.addNode node).2
  have hlinked : (node.linkedCells.map (·.2)).Sublist cells := node.linkedCells_sublist
  have hnodup : (cells ++ (frame ++ s.slots.map (·.2))).Nodup := by
    rw [← List.append_assoc]
    exact hs.nodup
  have hcells : (node.linkedCells.map (·.2)).Nodup := hlinked.nodup hnodup.of_append_left
  have hfree : ∀ c ∈ node.linkedCells.map (·.2), (s.store.cell? c).isSome ∧ s.store.owner? c = none :=
    fun c hc => hs.unowned c (List.mem_append_left _ (List.mem_append_left _ (hlinked.subset hc)))
  have hgrows := s.store.grows_addOperation header payload cells
  have hsame : ∀ {c}, c ∉ node.linkedCells.map (·.2) →
      (s.withOperation header payload cells).store.owner? c = s.store.owner? c := fun hc =>
    Store.owner?_installAll_of_notMem hc
  refine ⟨?_, ?_, hnodup.of_append_right, ?_, ?_⟩
  · intro p node' hp c hc
    obtain ⟨old, hold, hle⟩ := Store.le_addOperation hp
    rw [hle.linkedCells] at hc
    split at hold
    · next heq =>
      cases hold
      subst heq
      obtain ⟨hthere, howner⟩ := hfree c.2 (List.mem_map_of_mem hc)
      exact Store.owner?_installAll_of_mem hcells hc hthere howner
    · have howner := hs.owned p old hold c hc
      refine (hsame fun hmem => ?_).trans howner
      rw [(hfree c.2 hmem).2] at howner
      cases howner
  · intro p node' hp
    obtain ⟨old, hold, hle⟩ := Store.le_addOperation hp
    rw [hle.cells]
    split at hold
    · cases hold
      exact hnodup.of_append_left
    · exact hs.distinct p old hold
  · intro c hc
    refine hs.unowned_of_le hgrows.toLe (c := c) ?_ (hsame fun hmem => ?_)
    · rw [List.append_assoc]
      exact List.mem_append_right _ hc
    · exact List.disjoint_of_nodup_append hnodup (hlinked.subset hmem) hc
  · intro p n hn
    obtain ⟨node', d, ops, hp, hd, ho, hmem⟩ := Store.mem_heldBy.mp hn
    have ho' : s.store.published? d = some ops :=
      (s.store.published?_addOperation header payload cells d).symm.trans ho
    obtain ⟨old, hold, hle⟩ := Store.le_addOperation hp
    split at hold
    · -- what the new operation holds is linked to it, unless it is linked already
      cases hold
      rw [hle.linkedCells] at hd
      have hin : n ∈ s.store.heldIn .attached node.linkedCells :=
        Store.mem_heldIn.mpr ⟨d, ops, hd, ho', hmem⟩
      rw [Session.withOperation, Store.link?_addOperation, if_pos ⟨hin, (hthere ho' hmem).le⟩]
      cases s.store.link? n <;> rfl
    · exact hs.linked_of_le hgrows.toLe hold (fun c hc => hgrows.published? (hs.cell hold hc)) hn

/-! Values. -/

/-- A value is linked to whom its slot belongs to as a child slot. -/
theorem Owned.settle (hs : s.Owned cells) (c : CellId) (run : Nat) {candidate : List NodeId}
    (hthere : ∀ n ∈ candidate, n < s.store.nodes.size) : (s.settle c run candidate).Owned cells := by
  have hle := s.le_settle c run candidate
  have hslots := (s.settle_names c run candidate).2.2.2.1
  refine ⟨?_, ?_, hslots ▸ hs.nodup, ?_, ?_⟩
  · intro p node' hp d hd
    obtain ⟨node, hnode, hle⟩ := le_node_settle hp
    rw [hle.linkedCells] at hd
    exact (s.owner?_settle c run candidate d.2).trans (hs.owned p node hnode d hd)
  · intro p node' hp
    obtain ⟨node, hnode, hle⟩ := le_node_settle hp
    exact hle.cells ▸ hs.distinct p node hnode
  · intro d hd
    exact hs.unowned_of_le hle (hslots ▸ hd) (s.owner?_settle c run candidate d)
  · intro p n hn
    obtain ⟨node', d, ops, hp, hd, ho, hmem⟩ := Store.mem_heldBy.mp hn
    obtain ⟨node, hnode, hnodeLe⟩ := le_node_settle hp
    rw [hnodeLe.linkedCells] at hd
    rcases published?_of_settle ho with ho | ⟨rfl, -, rfl⟩
    · obtain ⟨q, hq⟩ := Option.isSome_iff_exists.mp
        (hs.linked p n (Store.mem_heldBy.mpr ⟨node, d, ops, hnode, hd, ho, hmem⟩))
      exact Option.isSome_iff_exists.mpr ⟨q, hle.link? hq⟩
    · have howner : s.store.owner? d = some ⟨p, .attached⟩ := hs.owned p node hnode _ hd
      rw [link?_settle, if_pos ⟨hmem, Store.node?_isSome (hthere n hmem)⟩,
        Store.adopter?_eq_some.mpr howner]
      cases s.store.link? n <;> rfl

/-- In order: what is referred to is there, and slots belong to whom they should. -/
structure Orderly (s : Session) (h : Holding) : Prop extends s.Present, s.Owned h.cells where
  has : s.Has h

theorem Orderly.mono {h h' : Holding} (hs : s.Orderly h) (hle : h'.Le h) : s.Orderly h' :=
  ⟨hs.toPresent, hs.toOwned.transfer rfl ((List.subperm_append_right _).mpr hle.cells), hs.has.mono hle⟩

end Session

namespace Procedure

open Session

variable {α β : Type} {pre : Holding} {x : Procedure α} {post : α → Holding}

/-- From a session in order to one in order, with no exception. -/
abbrev Orders : Holding → Procedure α → (α → Holding) → Prop :=
  Preserves Orderly fun _ => False

/-- What is referred to is there in any case, so only the owners of slots remain to be seen. -/
theorem orders_of_finds (hx : Finds pre x post)
    (hok : ∀ {s t : Session} {frame : Holding} {a : α}, s.Orderly (pre ++ frame) → x s = (.ok a, t) →
      t.Owned (post a ++ frame).cells)
    (herror : ∀ {s t : Session} {frame : Holding} {f : Fault}, s.Orderly (pre ++ frame) →
      x s = (.error f, t) → t.Owned []) : Orders pre x post where
  ok {s t frame a} hs ht := by
    obtain ⟨hpresent, hle, hpost⟩ := hx s hs.toPresent (hs.has.mono (.append_left _ _))
    rw [ht] at hpresent hle hpost
    have hframe : s.Has frame := ⟨fun c hc => hs.has.cell c (List.mem_append_right _ hc),
      fun n hn => hs.has.node n (List.mem_append_right _ hn)⟩
    exact ⟨hpresent, hok hs ht, (hpost a rfl).append (hframe.le hle)⟩
  error {s t frame f} hs ht := by
    obtain ⟨hpresent, hle, -⟩ := hx s hs.toPresent (hs.has.mono (.append_left _ _))
    rw [ht] at hpresent hle
    refine .inl ⟨hpresent, herror hs ht, fun c hc => (nomatch hc), fun n hn => ?_⟩
    exact (hs.has.node n (List.mem_append_right _ hn)).trans_le hle.size_nodes

/-- What leaves the store and the slots by name as they are. -/
theorem orders_of_same (hx : Finds pre x post) (hpost : ∀ a, (post a).cells.Subperm pre.cells)
    (hsame : ∀ s, (x s).2.store = s.store ∧ (x s).2.slots = s.slots) : Orders pre x post := by
  have hmove : ∀ {s : Session} {cells cells' : List CellId}, s.Owned cells → cells'.Subperm cells →
      (x s).2.Owned cells' := by
    intro s cells cells' hs hcells
    refine hs.transfer (hsame s).1 ?_
    rw [(hsame s).2]
    exact (List.subperm_append_right _).mpr hcells
  refine orders_of_finds hx (fun {s t frame a} hs ht => ?_) fun {s t frame f} hs ht => ?_
  · have howned := hmove hs.toOwned ((List.subperm_append_right frame.cells).mpr (hpost a))
    rw [ht] at howned
    exact howned
  · have howned := hmove hs.toOwned List.nil_subperm
    rw [ht] at howned
    exact howned

end Procedure

namespace Session

open Procedure

theorem Orderly.recall {s : Session} {h : Holding} {ns : List NodeId} (hs : s.Orderly h)
    (hn : ∀ n ∈ ns, s.Mentions n) : s.Orderly (h ++ ⟨[], ns⟩) := by
  refine ⟨hs.toPresent, hs.toOwned.transfer rfl (by simp [List.Subperm.refl]), ?_⟩
  exact hs.has.append ⟨fun c hc => absurd hc List.not_mem_nil, fun n hmem => hs.node (hn n hmem)⟩

/-- What is in use again is there. -/
theorem Orderly.restore {s u : Session} {h : Holding} (hu : u.Orderly h)
    (hheld : s.heldNodes ⊆ h.nodes) : ({ u with held := s.held } : Session).Orderly h := by
  refine ⟨hu.toPresent.transfer rfl (fun _ hb => hu.slot hb) ?_,
    hu.toOwned.transfer rfl (List.Subperm.refl _), hu.has.cell, hu.has.node⟩
  rintro n (hn | hn | ⟨hc, hn⟩ | ⟨hm, hn⟩)
  · exact hu.node (.bound hn)
  · exact hu.has.node n (hheld (mem_heldNodes.mpr hn))
  · exact hu.node (.published hc hn)
  · exact hu.node (.payload hm hn)

theorem orders_newCell (arity : Arity) (content : Content) :
    Orders ⟨[], content.published?.getD []⟩ (newCell arity content) fun c => ⟨[c], []⟩ := by
  refine orders_of_finds (finds_newCell arity content) (fun hs ht => ?_) fun _ ht => nomatch ht
  rw [newCell_apply] at ht
  cases ht
  exact hs.toOwned.addCell arity content

theorem subperm_remove {l : List (String × Nat)} {name : String} {c : Nat} (h : lookup l name = some c) :
    (c :: (remove l name).map (·.2)).Subperm (l.map (·.2)) := by
  obtain ⟨b, hb, rfl⟩ := Option.map_eq_some_iff.mp h
  have hname : b.1 = name := by simpa using List.find?_some hb
  have hmem : b ∈ l.filter fun a => !(a.1 != name) :=
    List.mem_filter.mpr ⟨List.mem_of_find?_eq_some hb, by simp [hname]⟩
  have hsub : ([b] ++ remove l name).Subperm ((l.filter fun a => !(a.1 != name)) ++ remove l name) :=
    (List.subperm_append_right _).mpr (List.singleton_subperm_iff.mpr hmem)
  have hperm := List.perm_append_comm.trans (List.filter_append_perm (fun a => a.1 != name) l)
  obtain ⟨rest, hrest, hsublist⟩ := hsub.trans hperm.subperm
  exact ⟨rest.map (·.2), hrest.map _, hsublist.map _⟩

/-- A slot that is taken is at hand, and has lost its name. -/
theorem orders_takeSlot (arity : Arity) (name : String) :
    Orders {} (takeSlot arity name) fun c => ⟨[c], []⟩ := by
  refine orders_of_finds (finds_takeSlot arity name) (fun {s t frame c} hs ht => ?_)
    fun {s t frame f} hs ht => ?_
  · rw [takeSlot_apply] at ht
    cases hl : lookup s.slots name with
    | none => simp [hl] at ht
    | some d =>
      simp only [hl] at ht
      split at ht
      · cases ht
        refine hs.toOwned.transfer rfl ?_
        simp only [Holding.cells_append, List.nil_append, List.singleton_append]
        exact (List.perm_middle.symm.subperm).trans
          ((List.subperm_append_left _).mpr (subperm_remove hl))
      · cases (Prod.mk.inj ht).1
  · have hremove : ((remove s.slots name).map (·.2)).Sublist (s.slots.map (·.2)) :=
      List.filter_sublist.map _
    rw [takeSlot_apply] at ht
    split at ht
    · cases ht
      exact hs.toOwned.transfer rfl (List.sublist_append_right _ _).subperm
    · split at ht
      · cases (Prod.mk.inj ht).1
      · cases ht
        exact hs.toOwned.transfer rfl (hremove.subperm.trans (List.sublist_append_right _ _).subperm)

theorem orders_construct (header : Header) (payload : Payload) (cells : List CellId) :
    Orders ⟨cells, payload.nodes⟩ (construct header payload cells) fun n => ⟨[], [n]⟩ := by
  have hadded : ∀ {s : Session} {frame : Holding}, s.Orderly (⟨cells, payload.nodes⟩ ++ frame) →
      (s.withOperation header payload cells).Owned frame.cells := fun hs =>
    hs.toOwned.withOperation (fun ho hn => hs.node (.published ho hn)) header payload
  have hnothing : ∀ {s : Session} {cells : List CellId}, s.Owned cells → s.Owned [] := fun hs =>
    hs.transfer rfl (List.sublist_append_right _ _).subperm
  have hevents : ∀ {s : Session} {cells : List CellId} (es : List Event), s.Owned cells →
      ({ s with events := es } : Session).Owned cells := fun es hs =>
    hs.transfer rfl (List.Subperm.refl _)
  refine orders_of_finds (finds_construct header payload cells) (fun hs ht => ?_) fun hs ht => ?_
  · obtain ⟨rfl, rfl, -, -⟩ := construct_eq_ok ht
    have howned := hadded hs
    exact howned
  · rw [construct_apply] at ht
    split at ht
    · cases ht
      exact hevents _ (hnothing hs.toOwned)
    · split at ht
      · cases (Prod.mk.inj ht).1
      · cases ht
        exact hevents _ (hnothing (hadded hs))

theorem Owned.started {s : Session} {cells : List CellId} (hs : s.Owned cells) (c : CellId)
    (p : Producer) : (s.started c p).Owned cells := by
  have hslots : (s.started c p).slots = s.slots := (s.started_rest c p).2.1
  refine hs.relink (s.changes_started c p).le ?_ ?_ ?_ hslots <;> rw [started_store]
  · exact fun h => ⟨_, h, .refl _⟩
  · exact fun _ => Store.owner?_modifyContent _ _ _ _
  · exact Store.published?_modifyContent_of (by simp) _ _

theorem orders_readCell {depth : Nat}
    (h : ∀ p run, Orders {} (produce depth p run) fun ops => ⟨[], ops⟩) (c : CellId) :
    Orders {} (readCell (depth + 1) c) fun ops => ⟨[], ops⟩ := by
  have hnothing : ∀ {s : Session} {cells : List CellId}, s.Owned cells → s.Owned [] := fun hs =>
    hs.transfer rfl (List.sublist_append_right _ _).subperm
  have hresult : ∀ {s t : Session} {frame : Holding} {r : Except Fault (List NodeId)},
      s.Orderly ({} ++ frame) → readCell (depth + 1) c s = (r, t) →
        (∀ ops, r = .ok ops → t.Owned frame.cells) ∧ ∀ f, r = .error f → t.Owned [] := by
    intro s t frame r hs ht
    have howned : s.Owned frame.cells := hs.toOwned
    have hstarted : ∀ p, (s.started c p).Orderly ({} ++ frame) := fun p =>
      ⟨hs.toPresent.started c p, howned.started c p, hs.has.le (s.changes_started c p).le⟩
    have hsettled : ∀ {p run candidate u}, produce depth p run (s.started c p) = (.ok candidate, u) →
        (u.settle c run candidate).Owned frame.cells := fun hx => by
      have hu := (h _ _).ok (hstarted _) hx
      exact hu.toOwned.settle c _ fun n hn => hu.has.node n (List.mem_append_left _ hn)
    cases readsTo_of_readCell ht with
    | missing _ => exact ⟨fun ops hr => (nomatch hr), fun f _ => hnothing howned⟩
    | published _ => exact ⟨fun _ _ => howned, fun f hr => nomatch hr⟩
    | failed _ hx =>
      refine ⟨fun ops hr => (nomatch hr), fun _ _ => ?_⟩
      exact ((h _ _).error (hstarted _) hx).elim (fun hu => hnothing hu.toOwned) False.elim
    | settled _ hx _ _ => exact ⟨fun _ _ => hsettled hx, fun f hr => nomatch hr⟩
    | refused _ hx _ =>
      refine ⟨fun ops hr => (nomatch hr), fun _ _ => ?_⟩
      exact (hsettled hx).transfer rfl (List.sublist_append_right _ _).subperm
  exact orders_of_finds (finds_logic.readSlotCell (depth + 1) c)
    (fun hs ht => (hresult hs ht).1 _ rfl) fun hs ht => (hresult hs ht).2 _ rfl

/-- A slot at hand gets a name, and whatever had the name before is lost. -/
theorem orders_nameSlot (name : String) (c : CellId) :
    Orders ⟨[c], []⟩ (modify fun s => { s with slots := (name, c) :: remove s.slots name })
      fun _ => {} := by
  refine orders_of_finds (finds_logic.nameSlot name c) (fun {s t frame a} hs ht => ?_)
    fun _ ht => nomatch ht
  cases ht
  refine hs.toOwned.transfer rfl ?_
  have hremove : ((remove s.slots name).map (·.2)).Sublist (s.slots.map (·.2)) :=
    List.filter_sublist.map _
  simp only [Holding.cells_append, List.nil_append, List.map_cons, List.singleton_append]
  exact List.perm_middle.subperm.trans ((hremove.append_left _).cons_cons c).subperm

/-- Every step leaves the session in order, also one that fails. -/
theorem orders_logic : StepLogic Orders where
  pure := .pure fun hs hle => hs.mono hle
  fail f := .fail (fun hs hle => hs.mono hle) f
  bind hx hf := hx.bind hf
  frame hx kept := hx.frame (fun hs hle => hs.mono hle) kept
  weaken hx hpre hpost := hx.weaken (fun hs hle => hs.mono hle) hpre hpost
  recalling ns hn _ hf := .recalling (fun hs hle => hs.mono hle) (fun hs hn => hs.recall hn) ns hn hf
  releasing hx := hx.releasing (fun hs hle => hs.mono hle) (fun hs hn => hs.recall hn)
    (fun hu hheld => hu.restore hheld) id
  hold n := orders_of_same (finds_hold n) (fun _ => .refl _) fun _ => ⟨rfl, rfl⟩
  bindName id n := orders_of_same (finds_bind id n) (fun _ => .refl _) fun s => by
    cases id <;> exact ⟨rfl, rfl⟩
  intern name := orders_of_same (finds_intern name) (fun _ => .refl _) fun _ => ⟨rfl, rfl⟩
  newCell arity content _ := orders_newCell arity content
  takeSlot := orders_takeSlot
  construct := orders_construct
  producing hx := .mapFault _ hx
  readCell _ c h := orders_readCell h c
  warn count root := orders_of_same (finds_logic.warn count root) (fun _ => .refl _) fun _ => ⟨rfl, rfl⟩
  holdCell c := orders_of_same (finds_logic.holdCell c) (fun _ => .refl _) fun _ => ⟨rfl, rfl⟩
  dropName id := orders_of_same (finds_logic.dropName id) (fun _ => .refl _) fun _ => ⟨rfl, rfl⟩
  nameSlot := orders_nameSlot

theorem orderly_start (verifies : Bool) : (start verifies).Orderly {} where
  toPresent := present_start verifies
  owned p node h := by simp [start, Store.node?] at h
  distinct p node h := by simp [start, Store.node?] at h
  nodup := List.nodup_nil
  unowned c hc := by simp [start] at hc
  linked p n hn := by simp [start, Store.heldBy, Store.node?, Store.heldIn] at hn
  has := has_nothing _

/-- Every session that steps lead to is in order, whether links are checked or not. -/
theorem Reached.orderly {verifies : Bool} {s : Session} (h : Reached verifies s) : s.Orderly {} := by
  induction h with
  | start => exact orderly_start verifies
  | @step s h e ih =>
    have hs : s.Orderly ({} ++ {}) := ih
    have hstep : (s.step e).session = (perform e s).2 := rfl
    rw [hstep]
    rcases hx : perform e s with ⟨f | a, t⟩
    · exact ((orders_logic.perform e).error hs hx).resolve_right id
    · exact (orders_logic.perform e).ok hs hx

end Session
end BoundTree
