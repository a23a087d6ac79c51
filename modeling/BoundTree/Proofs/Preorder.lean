import BoundTree.Proofs.Browsing
import BoundTree.Proofs.Ownership
import BoundTree.Proofs.TreeCheck

/-!
What is below an operation, where every child slot has its value and nothing comes back to itself; an
operation may still be held in several places. Main statements: the pre-order of an operation is the
operation and then the pre-orders of its children; no path down is longer than the store, and the
pre-order is no longer than there are sets of places.
-/
namespace BoundTree

namespace Store

/-- The children in evaluation order, as far as they are there. -/
def childrenOf (s : Store) (n : NodeId) : List NodeId :=
  (s.node? n).elim [] fun node => node.childCells.flatMap fun c => (s.published? c).getD []

/-- The operation and then, child by child, those below it, down to a depth. -/
def preorderWithin (s : Store) : Nat → NodeId → List NodeId
  | 0, _ => []
  | depth + 1, n => n :: (s.childrenOf n).flatMap (s.preorderWithin depth)

/-- The operation and all below it. A path that goes further than there are operations would come to one
of them twice. -/
def preorder (s : Store) (n : NodeId) : List NodeId := s.preorderWithin s.nodes.size n

/-- Operations that are found from another one through child slots, in at least one step. -/
def Under (s : Store) : NodeId → NodeId → Prop :=
  Relation.TransGen fun p n => n ∈ s.heldBy .attached p

/-- Every operation that is found is there, every child slot of it has its value, and it is not under
itself. -/
structure Unfolds (s : Store) (r : NodeId) : Prop where
  there : ∀ p, s.Below r p → ∃ node, s.node? p = some node ∧
    ∀ c ∈ node.childCells, (s.published? c).isSome
  acyclic : ∀ p, s.Below r p → ¬s.Under p p

/-- Operations that hold only older ones, and that have all children, are all that is found. -/
theorem Unfolds.of_closed {s : Store} {r : NodeId} (ns : List NodeId) (hr : r ∈ ns)
    (h : ∀ p ∈ ns, (∀ n ∈ s.heldBy .attached p, n ∈ ns ∧ n < p) ∧ (s.node? p).any fun node =>
      node.childCells.all fun c => (s.published? c).isSome) : s.Unfolds r := by
  have hbelow : ∀ p, s.Below r p → p ∈ ns := by
    intro p hp
    induction hp with
    | refl => exact hr
    | tail _ hc ih => exact ((h _ ih).1 _ hc).1
  refine ⟨fun p hp => ?_, fun p hp hcircle => ?_⟩
  · have hall := (h p (hbelow p hp)).2
    cases hnode : s.node? p with
    | none => simp [hnode] at hall
    | some node => exact ⟨node, rfl, by simpa [hnode] using hall⟩
  · have holder : ∀ n, s.Under p n → n ∈ ns ∧ n < p := by
      intro n hn
      induction hn with
      | single hc => exact (h p (hbelow p hp)).1 _ hc
      | tail _ hc ih => exact ⟨((h _ ih.1).1 _ hc).1, ((h _ ih.1).1 _ hc).2.trans ih.2⟩
    exact lt_irrefl p (holder p hcircle).2

variable {s : Store} {r p c : NodeId}

theorem mem_heldBy_of_childrenOf (h : c ∈ s.childrenOf p) : c ∈ s.heldBy .attached p := by
  cases hnode : s.node? p with
  | none => simp [childrenOf, hnode] at h
  | some node =>
    simp only [childrenOf, hnode, Option.elim_some] at h
    obtain ⟨d, hd, hc⟩ := List.mem_flatMap.mp h
    cases ho : s.published? d with
    | none => simp [ho] at hc
    | some ops =>
      exact mem_heldBy.mpr ⟨node, d, ops, hnode, Node.mem_linkedCells_of_childCells hd, ho,
        by simpa [ho] using hc⟩

theorem Below.child (h : s.Below r p) (hc : c ∈ s.childrenOf p) : s.Below r c :=
  h.tail (mem_heldBy_of_childrenOf hc)

/-- How many operations are under an operation. -/
noncomputable def progeny (s : Store) (p : NodeId) : Nat := {n | s.Under p n}.ncard

namespace Unfolds

variable (h : s.Unfolds r)
include h

theorem lt_size (hp : s.Below r p) : p < s.nodes.size := by
  obtain ⟨node, hnode, -⟩ := h.there p hp
  exact node?_lt hnode

theorem under_subset (hp : s.Below r p) : {n | s.Under p n} ⊆ (Finset.range s.nodes.size : Set Nat) := by
  intro n hn
  have hunder : s.Under p n := hn
  exact Finset.mem_coe.mpr (Finset.mem_range.mpr (h.lt_size (hp.trans hunder.to_reflTransGen)))

theorem finite_under (hp : s.Below r p) : {n | s.Under p n}.Finite :=
  (Finset.finite_toSet _).subset (h.under_subset hp)

/-- A child has less under it, for it is not under itself. -/
theorem progeny_lt (hp : s.Below r p) (hc : c ∈ s.childrenOf p) : s.progeny c < s.progeny p := by
  have hchild : s.Under p c := .single (mem_heldBy_of_childrenOf hc)
  refine Set.ncard_lt_ncard (Set.ssubset_iff_exists.mpr ⟨fun n hn => ?_, c, hchild, ?_⟩)
    (h.finite_under hp)
  · exact hchild.trans hn
  · exact h.acyclic c (hp.child hc)

theorem progeny_lt_size (hp : s.Below r p) : s.progeny p < s.nodes.size := by
  have hlt : s.progeny p < (Finset.range s.nodes.size : Set Nat).ncard := by
    refine Set.ncard_lt_ncard (Set.ssubset_iff_exists.mpr ⟨h.under_subset hp, p, ?_, h.acyclic p hp⟩)
      (Finset.finite_toSet _)
    exact Finset.mem_coe.mpr (Finset.mem_range.mpr (h.lt_size hp))
  rwa [Set.ncard_coe_finset, Finset.card_range] at hlt

/-- A depth at which nothing is left out is as good as any other one. -/
theorem preorderWithin_eq (hp : s.Below r p) {a b : Nat} (ha : s.progeny p < a) (hb : s.progeny p < b) :
    s.preorderWithin a p = s.preorderWithin b p := by
  induction a generalizing p b with
  | zero => omega
  | succ a ih =>
    obtain ⟨b, rfl⟩ := Nat.exists_eq_succ_of_ne_zero (Nat.ne_zero_of_lt hb)
    rw [preorderWithin, preorderWithin]
    refine congrArg _ (List.flatMap_congr fun c hc => ?_)
    have hlt := h.progeny_lt hp hc
    exact ih (hp.child hc) (by omega) (by omega)

/-- The pre-order is the operation and then the pre-orders of its children. -/
theorem preorder_eq (hp : s.Below r p) : s.preorder p = p :: (s.childrenOf p).flatMap s.preorder := by
  have hsize := h.progeny_lt_size hp
  obtain ⟨size, hsucc⟩ := Nat.exists_eq_succ_of_ne_zero (Nat.ne_zero_of_lt hsize)
  have hstep : s.preorder p = p :: (s.childrenOf p).flatMap (s.preorderWithin size) := by
    rw [preorder, hsucc, preorderWithin]
  rw [hstep]
  refine congrArg _ (List.flatMap_congr fun c hc => ?_)
  have hlt := h.progeny_lt hp hc
  exact h.preorderWithin_eq (hp.child hc) (by omega) (h.progeny_lt_size (hp.child hc))

theorem length_preorder (hp : s.Below r p) :
    (s.preorder p).length = 1 + ((s.childrenOf p).map fun c => (s.preorder c).length).sum := by
  rw [h.preorder_eq hp, List.length_cons, List.length_flatMap, Nat.add_comm]

/-- Every entry of the pre-order is found. -/
theorem below_of_mem_preorder (hp : s.Below r p) {n : NodeId} (hn : n ∈ s.preorder p) :
    s.Below r n := by
  induction hprogeny : s.progeny p using Nat.strong_induction_on generalizing p with
  | _ k ih =>
    subst hprogeny
    rw [h.preorder_eq hp] at hn
    rcases List.mem_cons.mp hn with rfl | hn
    · exact hp
    · obtain ⟨c, hc, hn⟩ := List.mem_flatMap.mp hn
      exact ih _ (h.progeny_lt hp hc) (hp.child hc) hn rfl

end Unfolds

/-- How many places there are in child slots. -/
def places (s : Store) : Nat := ∑ n ∈ Finset.range s.nodes.size, (s.childrenOf n).length

/-- The places of operations that have no more under them than an operation make as many sets as there
can be paths down from it. -/
theorem Unfolds.length_preorder_le (h : s.Unfolds r) (hp : s.Below r p) : (s.preorder p).length ≤
    2 ^ ∑ n ∈ Finset.range s.nodes.size with s.progeny n ≤ s.progeny p, (s.childrenOf n).length := by
  induction hprogeny : s.progeny p using Nat.strong_induction_on generalizing p with
  | _ k ih =>
    subst hprogeny
    let fewer := ∑ n ∈ Finset.range s.nodes.size with s.progeny n < s.progeny p,
      (s.childrenOf n).length
    have hchild : ∀ c ∈ s.childrenOf p, (s.preorder c).length ≤ 2 ^ fewer := by
      intro c hc
      have hlt := h.progeny_lt hp hc
      refine (ih _ hlt (hp.child hc) rfl).trans (Nat.pow_le_pow_right two_pos ?_)
      refine Finset.sum_le_sum_of_subset fun n hn => ?_
      rw [Finset.mem_filter] at hn ⊢
      exact ⟨hn.1, hn.2.trans_lt hlt⟩
    -- the operation adds its own places
    have hadd : (s.childrenOf p).length + fewer ≤
        ∑ n ∈ Finset.range s.nodes.size with s.progeny n ≤ s.progeny p, (s.childrenOf n).length := by
      have hnew : p ∉ (Finset.range s.nodes.size).filter fun n => s.progeny n < s.progeny p :=
        fun hmem => lt_irrefl _ (Finset.mem_filter.mp hmem).2
      refine (Finset.sum_insert (f := fun n => (s.childrenOf n).length) hnew).symm.trans_le ?_
      refine Finset.sum_le_sum_of_subset fun n hn => ?_
      rw [Finset.mem_filter]
      rcases Finset.mem_insert.mp hn with rfl | hn
      · exact ⟨Finset.mem_range.mpr (h.lt_size hp), le_rfl⟩
      · exact ⟨(Finset.mem_filter.mp hn).1, (Finset.mem_filter.mp hn).2.le⟩
    have hsum : ((s.childrenOf p).map fun c => (s.preorder c).length).sum ≤
        (s.childrenOf p).length * 2 ^ fewer := by
      refine (List.sum_le_card_nsmul _ (2 ^ fewer) fun k hk => ?_).trans_eq (by simp)
      obtain ⟨c, hc, rfl⟩ := List.mem_map.mp hk
      exact hchild c hc
    calc (s.preorder p).length
        = 1 + ((s.childrenOf p).map fun c => (s.preorder c).length).sum := h.length_preorder hp
      _ ≤ 2 ^ fewer + (s.childrenOf p).length * 2 ^ fewer :=
          Nat.add_le_add Nat.one_le_two_pow hsum
      _ = ((s.childrenOf p).length + 1) * 2 ^ fewer := by ring
      _ ≤ 2 ^ (s.childrenOf p).length * 2 ^ fewer :=
          Nat.mul_le_mul_right _ Nat.lt_two_pow_self
      _ = 2 ^ ((s.childrenOf p).length + fewer) := (pow_add _ _ _).symm
      _ ≤ _ := Nat.pow_le_pow_right two_pos hadd

/-- There are no more paths down than sets of places. -/
theorem Unfolds.length_preorder_le_places (h : s.Unfolds r) (hp : s.Below r p) :
    (s.preorder p).length ≤ 2 ^ s.places :=
  (h.length_preorder_le hp).trans (Nat.pow_le_pow_right two_pos
    (Finset.sum_le_sum_of_subset (Finset.filter_subset _ _)))

end Store

namespace Session

variable {s : Session}

/-- The child slots of all operations, one operation after the other. -/
def allChildCells (s : Session) : List CellId :=
  (List.range s.store.nodes.size).flatMap fun n => (s.store.node? n).elim [] (·.childCells)

/-- No slot belongs to two operations, or to one as two of its slots. -/
theorem exists_of_mem_childCells {s : Store} {n : NodeId} {c : CellId}
    (h : c ∈ (s.node? n).elim [] (·.childCells)) :
    ∃ node, s.node? n = some node ∧ c ∈ node.childCells := by
  cases hnode : s.node? n with
  | none => simp [hnode] at h
  | some node => exact ⟨node, rfl, by simpa [hnode] using h⟩

theorem Orderly.nodup_allChildCells (hs : s.Orderly {}) : s.allChildCells.Nodup := by
  refine List.nodup_flatMap.mpr ⟨fun n hn => ?_, ?_⟩
  · cases hnode : s.store.node? n with
    | none => exact List.nodup_nil
    | some node => exact Node.nodup_childCells (hs.distinct n node hnode)
  · refine List.nodup_range.imp fun {p q} hne c hcp hcq => hne ?_
    have howner : ∀ n, c ∈ (s.store.node? n).elim [] (·.childCells) →
        s.store.owner? c = some ⟨n, .attached⟩ := by
      intro n hn
      obtain ⟨node, hnode, hc⟩ := exists_of_mem_childCells hn
      exact hs.owned n node hnode _ (Node.mem_linkedCells_of_childCells hc)
    exact congrArg Owner.node (Option.some.inj ((howner p hcp).symm.trans (howner q hcq)))

theorem Orderly.allChildCells_subset (hs : s.Orderly {}) :
    s.allChildCells ⊆ List.range s.store.cells.size := by
  intro c hc
  obtain ⟨n, -, hn⟩ := List.mem_flatMap.mp hc
  obtain ⟨node, hnode, hc⟩ := exists_of_mem_childCells hn
  obtain ⟨cell, hcell⟩ := Option.isSome_iff_exists.mp
    (hs.toOwned.cell hnode (Node.mem_linkedCells_of_childCells hc))
  exact List.mem_range.mpr (Store.cell?_lt hcell)

/-- The store is made for as many places as there are. -/
theorem Orderly.places_le_budget (hs : s.Orderly {}) : s.store.places ≤ s.store.budget := by
  let count (c : CellId) : Nat := ((s.store.published? c).getD []).length
  have hplaces : s.store.places = (s.allChildCells.map count).sum := by
    have hlist : s.store.places =
        ((List.range s.store.nodes.size).map fun n => (s.store.childrenOf n).length).sum := rfl
    rw [hlist, allChildCells, List.map_flatMap, List.flatMap, List.sum_flatten, List.map_map]
    refine congrArg List.sum (List.map_congr_left fun n _ => ?_)
    cases hnode : s.store.node? n with
    | none => simp [Store.childrenOf, hnode]
    | some node => simp [Store.childrenOf, hnode, List.length_flatMap, count]
  have hcells : (s.allChildCells.map count).sum ≤
      ((List.range s.store.cells.size).map count).sum := by
    obtain ⟨l, hl, hsub⟩ := List.subperm_of_subset hs.nodup_allChildCells hs.allChildCells_subset
    exact (hl.map count).sum_eq.symm.trans_le ((hsub.map count).sum_le_sum fun _ _ => Nat.zero_le _)
  have hcontents : ((List.range s.store.cells.size).map count).sum ≤ s.store.potential := by
    have hmap : (List.range s.store.cells.size).map count =
        s.store.contents.map fun a => (a.published?.getD []).length := by
      refine List.ext_getElem (by simp [Store.contents]) fun c hc hc' => ?_
      have hlt : c < s.store.cells.size := by simpa using hc
      simp [count, Store.contents, Store.published?, Store.cell?, hlt]
    rw [hmap]
    refine List.sum_le_sum fun a _ => ?_
    rcases a with ops | ⟨p, _ | runs, finished, _ | ops⟩ <;>
      simp [Content.published?, Content.potential]
  calc s.store.places = (s.allChildCells.map count).sum := hplaces
    _ ≤ ((List.range s.store.cells.size).map count).sum := hcells
    _ ≤ s.store.potential := hcontents
    _ ≤ s.store.extent := Nat.le_add_left _ _
    _ ≤ s.store.budget := s.store.extent_le_budget

end Session
end BoundTree
