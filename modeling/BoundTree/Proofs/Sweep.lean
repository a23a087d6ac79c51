import BoundTree.Proofs.Ownership
import BoundTree.Proofs.TreeCheck

/-!
What a check of a tree comes to, and when. A check reads the slots on its way, so each position is looked
at in a session of its own. Main statements: a check that ends is such a sweep, it leaves every slot below
its root with its value, and any check from there on comes to the same positions, in the same order.
-/
namespace BoundTree

namespace Session

open Procedure

/-- A position that a check comes to. -/
structure Look where
  owner : NodeId
  linkage : Linkage
  child : NodeId
  /-- Whether the child was reached before. -/
  again : Bool

/-- What is reported of the position in a session. -/
def Look.report (l : Look) (s : Session) : List LinkViolation :=
  (s.checkLink l.owner l.linkage l.child).toList ++
    if l.again then (s.sharing? l.child).toList else []

/-! What a sweep looks at. -/

namespace Sweep

/-- The operations that are known once a value has been looked at. -/
def pass (w : Sweep) (l : Linkage) (c : NodeId) : Sweep :=
  if l = .attached ∧ c ∉ w.seen then { w with seen := c :: w.seen, pending := c :: w.pending } else w

def passAll (w : Sweep) (ns : List (Linkage × NodeId)) : Sweep :=
  ns.foldl (fun w n => w.pass n.1 n.2) w

/-- What there is to look at, value by value. -/
def looks (w : Sweep) (owner : NodeId) : List (Linkage × NodeId) → List Look
  | [] => []
  | n :: ns => ⟨owner, n.1, n.2, n.1 = .attached ∧ n.2 ∈ w.seen⟩ :: (w.pass n.1 n.2).looks owner ns

theorem visit_eq (w : Sweep) (s : Session) (owner : NodeId) (l : Linkage) (c : NodeId) :
    w.visit s owner l c = { w.pass l c with
      found := (Look.report ⟨owner, l, c, l = .attached ∧ c ∈ w.seen⟩ s).reverse ++ w.found } := by
  have hsharing : s.sharing? c = (s.linkFacts? c).map fun f => .sharedNode f.kind := by
    unfold sharing? kind? linkFacts?
    cases s.store.node? c <;> rfl
  unfold visit Look.report pass
  cases l with
  | detached => cases s.checkLink owner .detached c <;> simp
  | attached =>
    by_cases hc : c ∈ w.seen
    · cases s.checkLink owner .attached c <;> cases hf : s.linkFacts? c <;>
        simp [reach, hc, hf, hsharing]
    · cases s.checkLink owner .attached c <;> simp [reach, hc]

/-! What was found before does not matter. -/

theorem pass_found (w : Sweep) (found : List LinkViolation) (l : Linkage) (c : NodeId) :
    ({ w with found } : Sweep).pass l c = { w.pass l c with found } := by
  unfold pass
  split <;> rfl

theorem passAll_found (w : Sweep) (found : List LinkViolation) (ns : List (Linkage × NodeId)) :
    ({ w with found } : Sweep).passAll ns = { w.passAll ns with found } := by
  induction ns generalizing w with
  | nil => rfl
  | cons n ns ih =>
    have hcons : ∀ w : Sweep, w.passAll (n :: ns) = (w.pass n.1 n.2).passAll ns := fun _ => rfl
    rw [hcons, hcons, pass_found, ih]

theorem looks_found (w : Sweep) (found : List LinkViolation) (owner : NodeId)
    (ns : List (Linkage × NodeId)) : ({ w with found } : Sweep).looks owner ns = w.looks owner ns := by
  induction ns generalizing w with
  | nil => rfl
  | cons n ns ih =>
    unfold looks
    rw [pass_found, ih]

theorem looks_append (w : Sweep) (owner : NodeId) (ns ms : List (Linkage × NodeId)) :
    w.looks owner (ns ++ ms) = w.looks owner ns ++ (w.passAll ns).looks owner ms := by
  induction ns generalizing w with
  | nil => rfl
  | cons n ns ih =>
    rw [List.cons_append, looks, looks, ih]
    rfl

theorem passAll_append (w : Sweep) (ns ms : List (Linkage × NodeId)) :
    w.passAll (ns ++ ms) = (w.passAll ns).passAll ms := List.foldl_append

/-- Every look is at one of the values. -/
theorem mem_looks {w : Sweep} {owner : NodeId} {ns : List (Linkage × NodeId)} {l : Look}
    (h : l ∈ w.looks owner ns) :
    l.owner = owner ∧ (l.linkage, l.child) ∈ ns ∧ (l.again → l.linkage = .attached) := by
  induction ns generalizing w with
  | nil => cases h
  | cons n ns ih =>
    rcases List.mem_cons.mp h with rfl | h
    · refine ⟨rfl, List.mem_cons_self, fun hagain => ?_⟩
      simp only [Bool.decide_and, Bool.and_eq_true, decide_eq_true_eq] at hagain
      exact hagain.1
    · obtain ⟨howner, hmem, hagain⟩ := ih h
      exact ⟨howner, List.mem_cons_of_mem _ hmem, hagain⟩

/-- Only children that are new are to be checked later, and all children are known then. -/
theorem passAll_new (w : Sweep) (ns : List (Linkage × NodeId)) :
    (∃ new, (w.passAll ns).seen = new ++ w.seen ∧ (w.passAll ns).pending = new ++ w.pending ∧
      ∀ m ∈ new, (Linkage.attached, m) ∈ ns) ∧
    ∀ m, (Linkage.attached, m) ∈ ns → m ∈ (w.passAll ns).seen := by
  induction ns generalizing w with
  | nil => exact ⟨⟨[], rfl, rfl, by simp⟩, by simp⟩
  | cons n ns ih =>
    obtain ⟨⟨new, hseen, hpending, hnew⟩, hall⟩ := ih (w.pass n.1 n.2)
    have hcons : w.passAll (n :: ns) = (w.pass n.1 n.2).passAll ns := rfl
    rw [hcons]
    by_cases hn : n.1 = .attached ∧ n.2 ∉ w.seen
    · have hpass : w.pass n.1 n.2 = { w with seen := n.2 :: w.seen, pending := n.2 :: w.pending } :=
        if_pos hn
      rw [hpass] at hseen hpending hall ⊢
      refine ⟨⟨new ++ [n.2], by simp [hseen], by simp [hpending], ?_⟩, ?_⟩
      · intro m hm
        rcases List.mem_append.mp hm with hm | hm
        · exact List.mem_cons_of_mem _ (hnew m hm)
        · rw [List.mem_singleton.mp hm, ← hn.1]
          exact List.mem_cons_self
      · intro m hm
        rcases List.mem_cons.mp hm with heq | hm
        · rw [hseen, ← heq]
          simp
        · exact hall m hm
    · have hpass : w.pass n.1 n.2 = w := if_neg hn
      rw [hpass] at hseen hpending hall ⊢
      refine ⟨⟨new, hseen, hpending, fun m hm => List.mem_cons_of_mem _ (hnew m hm)⟩, ?_⟩
      intro m hm
      rcases List.mem_cons.mp hm with heq | hm
      · have hknown : m ∈ w.seen := by
          rw [← heq] at hn
          simpa using hn
        rw [hseen]
        exact List.mem_append_right _ hknown
      · exact hall m hm

theorem visitAll_eq (w : Sweep) (s : Session) (owner : NodeId) (ns : List (Linkage × NodeId)) :
    w.visitAll s owner ns = { w.passAll ns with
      found := ((w.looks owner ns).flatMap (·.report s)).reverse ++ w.found } := by
  induction ns generalizing w with
  | nil => rfl
  | cons n ns ih =>
    have hcons : w.visitAll s owner (n :: ns) = (w.visit s owner n.1 n.2).visitAll s owner ns := rfl
    rw [hcons, ih, visit_eq, passAll_found, looks_found]
    simp only [looks, List.flatMap_cons, List.reverse_append, List.append_assoc]
    rfl

end Sweep

/-! What a sweep comes to, and when. -/

/-- Positions that were checked between two sessions, each at a moment of its own. -/
structure Visited (s t : Session) (visited : List (Session × Look)) : Prop where
  since : ∀ v ∈ visited, s.Changes v.1
  upto : ∀ v ∈ visited, v.1.Changes t
  orderly : ∀ v ∈ visited, v.1.Orderly {}
  held : ∀ v ∈ visited, v.2.child ∈ v.1.store.heldBy v.2.linkage v.2.owner
  again : ∀ v ∈ visited, v.2.again → v.2.linkage = .attached

theorem Visited.nil (s t : Session) : s.Visited t [] := by
  constructor <;> (intro v hv; cases hv)

theorem Visited.append {s t u : Session} {visited more : List (Session × Look)}
    (h : s.Visited t visited) (k : t.Visited u more) (hst : s.Changes t) (htu : t.Changes u) :
    s.Visited u (visited ++ more) := by
  constructor <;> intro v hv <;> rcases List.mem_append.mp hv with hv | hv
  · exact h.since v hv
  · exact hst.trans (k.since v hv)
  · exact (h.upto v hv).trans htu
  · exact k.upto v hv
  · exact h.orderly v hv
  · exact k.orderly v hv
  · exact h.held v hv
  · exact k.held v hv
  · exact h.again v hv
  · exact k.again v hv

/-- The values of a slot that has just been read. -/
theorem visited_values {s t : Session} {owner : NodeId} {node : Node} {c : Linkage × CellId}
    {ops : List NodeId} (hst : s.Changes t) (ht : t.Orderly {})
    (howner : t.store.node? owner = some node) (hc : c ∈ node.linkedCells)
    (ho : t.store.published? c.2 = some ops) (w : Sweep) :
    s.Visited t ((w.looks owner (ops.map (c.1, ·))).map (t, ·)) := by
  have hall : ∀ v ∈ (w.looks owner (ops.map (c.1, ·))).map (t, ·),
      v.1 = t ∧ v.2 ∈ w.looks owner (ops.map (c.1, ·)) := by
    intro v hv
    obtain ⟨l, hl, rfl⟩ := List.mem_map.mp hv
    exact ⟨rfl, hl⟩
  constructor <;> intro v hv <;> obtain ⟨hv, hl⟩ := hall v hv
  · exact hv ▸ hst
  · exact hv ▸ .refl
  · exact hv ▸ ht
  · obtain ⟨hl, hmem, -⟩ := Sweep.mem_looks hl
    obtain ⟨n, hn, hpair⟩ := List.mem_map.mp hmem
    obtain ⟨hlinkage, hchild⟩ := Prod.mk.inj hpair
    rw [hv, hl, ← hlinkage, ← hchild]
    exact Store.mem_heldBy.mpr ⟨node, c.2, ops, howner, hc, ho, hn⟩
  · exact (Sweep.mem_looks hl).2.2

/-- Slot by slot, the values are read and then checked. -/
theorem sweepSlots_visited {owner : NodeId} {cells : List (Linkage × CellId)} {w w' : Sweep}
    {s t : Session} (h : sweepSlots owner cells w s = (.ok w', t)) (hs : s.Orderly {})
    (howner : ∀ c ∈ cells, ∃ node, s.store.node? owner = some node ∧ c ∈ node.linkedCells) :
    s.Changes t ∧ t.Orderly {} ∧ (∀ c ∈ cells, (t.store.published? c.2).isSome) ∧
      ∃ visited, s.Visited t visited ∧ visited.map (·.2) = w.looks owner (t.positions cells) ∧
        w' = { w.passAll (t.positions cells) with
          found := (visited.flatMap fun v => v.2.report v.1).reverse ++ w.found } := by
  induction cells generalizing w s with
  | nil =>
    cases h
    exact ⟨.refl, hs, by simp, [], .nil _ _, rfl, rfl⟩
  | cons c cells ih =>
    rw [sweepSlots_cons] at h
    obtain ⟨ops, u, hread, hrest⟩ := bind_eq_ok h
    have hsu : s.Changes u := (changing_logic.operations c.2).reaches hread
    have hu : u.Orderly {} := by
      have hwith : s.Orderly ({} ++ {}) := hs
      exact ((orders_logic.operations c.2).ok hwith hread).mono (.empty _)
    have ho : u.store.published? c.2 = some ops := IsRead.published? (.inl hread.symm)
    have hlater : ∀ d ∈ c :: cells, ∃ node, u.store.node? owner = some node ∧ d ∈ node.linkedCells := by
      intro d hd
      obtain ⟨node, hnode, hmem⟩ := howner d hd
      obtain ⟨node', hnode', hle⟩ := hsu.le.node hnode
      exact ⟨node', hnode', hle.linkedCells ▸ hmem⟩
    rw [bind_ok (read_apply u), Sweep.visitAll_eq] at hrest
    obtain ⟨hut, ht, hpublished, visited, hvisited, hlooks, rfl⟩ :=
      ih hrest hu fun d hd => hlater d (List.mem_cons_of_mem _ hd)
    obtain ⟨node, hnode, hmem⟩ := hlater c List.mem_cons_self
    have hpositions : t.positions (c :: cells) = ops.map (c.1, ·) ++ t.positions cells := by
      rw [positions_cons, hut.le.published? ho, Option.getD_some]
    refine ⟨hsu.trans hut, ht, ?_, (w.looks owner (ops.map (c.1, ·))).map (u, ·) ++ visited, ?_, ?_, ?_⟩
    · intro d hd
      rcases List.mem_cons.mp hd with rfl | hd
      · exact Option.isSome_of_mem (hut.le.published? ho)
      · exact hpublished d hd
    · exact (visited_values hsu hu hnode hmem ho w).append hvisited hsu hut
    · have hlooks : visited.map (·.2) =
          (w.passAll (ops.map (c.1, ·))).looks owner (t.positions cells) :=
        hlooks.trans (Sweep.looks_found _ _ _ _)
      rw [List.map_append, hlooks, hpositions, Sweep.looks_append, List.map_map]
      simp [Function.comp_def]
    · rw [hpositions, Sweep.passAll_append, Sweep.passAll_found]
      simp [List.flatMap_map]

/-- A sweep that came to its end, with the positions that it checked and their moments. Each operation
that was pending is followed by its children that were new. -/
inductive Swept (w' : Sweep) (t : Session) : Sweep → Session → List (Session × Look) → Prop
  | done (hp : w'.pending = []) (ht : t.Orderly {}) : Swept w' t w' t []
  | next {w : Sweep} {s u : Session} {n : NodeId} {pending : List NodeId} {node : Node}
      {visited more : List (Session × Look)} (hp : w.pending = n :: pending)
      (hnode : s.store.node? n = some node) (hsu : s.Changes u)
      (hpublished : ∀ c ∈ node.linkedCells, (u.store.published? c.2).isSome)
      (hvisited : s.Visited u visited)
      (hlooks : visited.map (·.2) =
        ({ w with pending } : Sweep).looks n (u.positions node.linkedCells))
      (rest : Swept w' t { ({ w with pending } : Sweep).passAll (u.positions node.linkedCells) with
        found := (visited.flatMap fun v => v.2.report v.1).reverse ++ w.found } u more) :
      Swept w' t w s (visited ++ more)

/-- Every sweep that comes to its end is one. -/
theorem swept_of_sweep {steps : Nat} {w w' : Sweep} {s t : Session}
    (h : sweep steps w s = (.ok w', t)) (hs : s.Orderly {})
    (hpending : ∀ n ∈ w.pending, (s.store.node? n).isSome) : ∃ visited, Swept w' t w s visited := by
  induction steps generalizing w s with
  | zero => cases h
  | succ steps ih =>
    cases hp : w.pending with
    | nil =>
      rw [sweep_done hp] at h
      cases h
      exact ⟨[], .done hp hs⟩
    | cons n pending =>
      obtain ⟨node, hnode⟩ := Option.isSome_iff_exists.mp (hpending n (by simp [hp]))
      rw [sweep_next hp hnode] at h
      obtain ⟨next, u, hslots, hrest⟩ := bind_eq_ok h
      obtain ⟨hsu, hu, hpublished, visited, hvisited, hlooks, rfl⟩ :=
        sweepSlots_visited hslots hs fun c hc => ⟨node, hnode, hc⟩
      obtain ⟨⟨new, -, hnewPending, hnew⟩, -⟩ :=
        ({ w with pending } : Sweep).passAll_new (u.positions node.linkedCells)
      refine (ih hrest hu fun m hm => ?_).imp' (visited ++ ·) fun more hmore =>
        .next hp hnode hsu hpublished hvisited hlooks hmore
      dsimp only at hm
      rw [hnewPending] at hm
      rcases List.mem_append.mp hm with hm | hm
      · obtain ⟨c, ops, -, ho, hmem⟩ := Store.mem_heldIn.mp (mem_positions.mp (hnew m hm))
        exact Store.node?_isSome (hu.node (.published ho hmem))
      · obtain ⟨old, hold⟩ := Option.isSome_iff_exists.mp (hpending m (by simp [hp, hm]))
        obtain ⟨node', hnode', -⟩ := hsu.le.node hold
        exact Option.isSome_of_mem hnode'

namespace Swept

variable {w w' : Sweep} {s t : Session} {visited : List (Session × Look)}

theorem changes (h : Swept w' t w s visited) : s.Changes t := by
  induction h with
  | done => exact .refl
  | next _ _ hsu _ _ _ _ ih => exact hsu.trans ih

theorem orderly (h : Swept w' t w s visited) : t.Orderly {} := by
  induction h with
  | done _ ht => exact ht
  | next _ _ _ _ _ _ _ ih => exact ih

theorem visits (h : Swept w' t w s visited) : s.Visited t visited := by
  induction h with
  | done => exact .nil _ _
  | next _ _ hsu _ hvisited _ rest ih => exact hvisited.append ih hsu rest.changes

theorem found (h : Swept w' t w s visited) :
    w'.found = (visited.flatMap fun v => v.2.report v.1).reverse ++ w.found := by
  induction h with
  | done => rfl
  | next _ _ _ _ _ _ _ ih => simp [ih]

theorem seen (h : Swept w' t w s visited) : w.seen ⊆ w'.seen := by
  induction h with
  | done => exact List.Subset.refl _
  | @next w _ u _ pending node _ _ _ _ _ _ _ _ _ ih =>
    obtain ⟨⟨new, hseen, -, -⟩, -⟩ :=
      ({ w with pending } : Sweep).passAll_new (u.positions node.linkedCells)
    intro m hm
    apply ih
    dsimp only
    rw [hseen]
    exact List.mem_append_right _ hm

/-- What was pending, or came to be known, has all its values at the end, and its children are known. -/
theorem closed (h : Swept w' t w s visited) {m : NodeId} (hm : m ∈ w'.seen) :
    (m ∈ w.seen ∧ m ∉ w.pending) ∨ t.store.heldBy .attached m ⊆ w'.seen ∧
      (t.store.node? m).any fun node =>
        node.linkedCells.all fun c => (t.store.published? c.2).isSome := by
  induction h with
  | done hp => exact .inl ⟨hm, by simp [hp]⟩
  | @next w s u n pending node visited more hp hnode hsu hpublished _ _ rest ih =>
    obtain ⟨⟨new, hseen, hnewPending, -⟩, hall⟩ :=
      ({ w with pending } : Sweep).passAll_new (u.positions node.linkedCells)
    rcases ih with ⟨hknown, hnot⟩ | hclosed
    · dsimp only at hknown hnot
      rw [hseen] at hknown
      rw [hnewPending, List.mem_append, not_or] at hnot
      have hmem : m ∈ w.seen := (List.mem_append.mp hknown).resolve_left hnot.1
      by_cases hmn : m = n
      · -- this is the one that was checked
        subst hmn
        have hst : s.Changes t := hsu.trans rest.changes
        obtain ⟨node', hnode', hle⟩ := hst.le.node hnode
        have hlater : ∀ c ∈ node.linkedCells, t.store.published? c.2 = u.store.published? c.2 := by
          intro c hc
          obtain ⟨ops, ho⟩ := Option.isSome_iff_exists.mp (hpublished c hc)
          rw [ho, rest.changes.le.published? ho]
        refine .inr ⟨?_, ?_⟩
        · intro k hk
          simp only [Store.heldBy, hnode', Option.elim_some, hle.linkedCells] at hk
          rw [Store.heldIn_congr hlater] at hk
          exact rest.seen (hall k (mem_positions.mpr hk))
        · simp only [hnode', Option.any_some, hle.linkedCells, List.all_eq_true]
          intro c hc
          rw [hlater c hc]
          exact hpublished c hc
      · refine .inl ⟨hmem, ?_⟩
        rw [hp, List.mem_cons, not_or]
        exact ⟨hmn, hnot.2⟩
    · exact .inr hclosed

/-- The same positions are checked again later, all at one moment. -/
theorem again (h : Swept w' t w s visited) {u : Session} (hle : t.store.Le u.store)
    {found : List LinkViolation} {steps : Nat} {w₂ : Sweep} {u₂ : Session}
    (hrun : sweep steps { w with found } u = (.ok w₂, u₂)) :
    w₂ = { w' with found := (visited.flatMap fun v => v.2.report u).reverse ++ found } ∧ u₂ = u := by
  induction h generalizing found steps with
  | done hp =>
    cases steps with
    | zero => cases hrun
    | succ steps =>
      have hnone : ({ w' with found } : Sweep).pending = [] := hp
      rw [sweep_done hnone] at hrun
      cases hrun
      exact ⟨rfl, rfl⟩
  | @next w s x n pending node visited more hp hnode hsx hpublished _ hlooks rest ih =>
    have hxu : x.store.Le u.store := rest.changes.le.trans hle
    obtain ⟨node', hnode', hnodeLe⟩ := (hsx.le.trans hxu).node hnode
    have hpositions : u.positions node.linkedCells = x.positions node.linkedCells := by
      refine List.flatMap_congr fun c hc => ?_
      obtain ⟨ops, ho⟩ := Option.isSome_iff_exists.mp (hpublished c hc)
      rw [ho, hxu.published? ho]
    have hall : ∀ c ∈ node'.linkedCells, (u.store.published? c.2).isSome := by
      rw [hnodeLe.linkedCells]
      intro c hc
      obtain ⟨ops, ho⟩ := Option.isSome_iff_exists.mp (hpublished c hc)
      exact Option.isSome_of_mem (hxu.published? ho)
    cases steps with
    | zero => cases hrun
    | succ steps =>
      have hfirst : ({ w with found } : Sweep).pending = n :: pending := hp
      rw [sweep_next hfirst hnode', bind_ok (sweepSlots_apply hall n _), Sweep.visitAll_eq,
        hnodeLe.linkedCells, hpositions] at hrun
      have hlooks' : ({ w with found, pending } : Sweep).looks n (x.positions node.linkedCells) =
          visited.map (·.2) :=
        (Sweep.looks_found { w with pending } found n _).trans hlooks.symm
      have hpass : ({ w with found, pending } : Sweep).passAll (x.positions node.linkedCells) =
          { ({ w with pending } : Sweep).passAll (x.positions node.linkedCells) with found } :=
        Sweep.passAll_found { w with pending } found _
      rw [hlooks', hpass] at hrun
      obtain ⟨rfl, rfl⟩ := ih hrun
      simp [List.flatMap_map]

end Swept

end Session
end BoundTree
