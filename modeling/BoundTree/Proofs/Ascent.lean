import BoundTree.Proofs.Parents
import BoundTree.Proofs.Recheck
import BoundTree.Proofs.Slots
import BoundTree.Proofs.Traversals

/-!
Walks up and walks down. A check of a tree that finds nothing leaves an operation below which each operation
is linked to the one place where it is held. Main statement: from there, the chain of parents of an
operation is the path down to it, read backwards.
-/
namespace BoundTree

namespace Store

variable {s : Store} {r p q c m n : NodeId}

/-- The children of an operation are what it holds as such, in another order. -/
theorem childrenOf_perm {node : Node} (hp : s.node? p = some node) (h : node.cells.Nodup) :
    (s.childrenOf p).Perm (s.heldBy .attached p) := by
  have hheld : s.heldBy .attached p =
      (node.declaredSlots.map (·.2)).flatMap fun c => (s.published? c).getD [] := by
    simp only [heldBy, heldIn, hp, Option.elim_some, Node.map_declaredSlots]
    induction node.linkedCells with
    | nil => rfl
    | cons d cells ih =>
      by_cases hd : d.1 = .attached <;> simp [hd, ih]
  rw [hheld]
  simp only [childrenOf, hp, Option.elim_some]
  exact (Node.declaredSlots_perm h).symm.flatMap_right _

/-! Where every operation is linked as it is held, and held once. -/

/-- What is below an operation is a tree, and every operation in it is linked to the one that holds it. -/
structure Treelike (s : Store) (r : NodeId) : Prop extends s.Unfolds r where
  linked : ∀ p, s.Below r p → ∀ c ∈ s.heldBy .attached p, s.link? c = some p
  root : ∀ p, s.Below r p → r ∉ s.heldBy .attached p
  once : ∀ p, s.Below r p → (s.childrenOf p).Nodup
  children : ∀ p, s.Below r p → ∀ c, c ∈ s.childrenOf p ↔ c ∈ s.heldBy .attached p

/-- A circle would lead back to the root, for each operation on it is held at one place only. -/
theorem acyclic_of_linked (hlinked : ∀ p, s.Below r p → ∀ c ∈ s.heldBy .attached p, s.link? c = some p)
    (hroot : ∀ p, s.Below r p → r ∉ s.heldBy .attached p) (hp : s.Below r p) : ¬s.Under p p := by
  induction hp with
  | refl =>
    intro hcircle
    obtain ⟨q, hq, hheld⟩ := Relation.TransGen.tail'_iff.mp hcircle
    exact hroot q hq hheld
  | @tail p c hp hc ih =>
    intro hcircle
    obtain ⟨q, hq, hheld⟩ := Relation.TransGen.tail'_iff.mp hcircle
    have hqp : q = p := Option.some.inj
      ((hlinked q ((hp.tail hc).trans hq) c hheld).symm.trans (hlinked p hp c hc))
    subst hqp
    exact ih (.head' hc hq)

namespace Treelike

variable (h : s.Treelike r)
include h

theorem mem_preorder_iff (hp : s.Below r p) : n ∈ s.preorder p ↔ s.Below p n := by
  constructor
  · exact fun hn => Unfolds.below_of_mem_preorder
      ⟨fun q hq => h.there q (hp.trans hq), fun q hq => h.acyclic q (hp.trans hq)⟩ .refl hn
  · intro hn
    induction hn using Relation.ReflTransGen.head_induction_on with
    | refl =>
      rw [h.preorder_eq hp]
      exact List.mem_cons_self
    | @head p c hc hn ih =>
      rw [h.preorder_eq hp]
      have hchild : c ∈ s.childrenOf p := (h.children p hp c).mpr hc
      exact List.mem_cons_of_mem _ (List.mem_flatMap.mpr ⟨c, hchild, ih (hp.tail hc)⟩)

/-- What leads to a child leads to the operation that holds it. -/
theorem below_of_under (hn : s.Below r n) (hp : s.Below r p) (hc : c ∈ s.heldBy .attached p)
    (hunder : s.Under n c) : s.Below n p := by
  obtain ⟨q, hnq, hheld⟩ := Relation.TransGen.tail'_iff.mp hunder
  have hqp : q = p := Option.some.inj
    ((h.linked q (hn.trans hnq) c hheld).symm.trans (h.linked p hp c hc))
  exact hqp ▸ hnq

/-- Of two operations above a third one, one is above the other. -/
theorem below_or_under (hm : s.Below r m) (hn : s.Below r n) (hmc : s.Below m c) (hnc : s.Below n c) :
    s.Below m n ∨ s.Below n m := by
  induction hmc with
  | refl => exact .inr hnc
  | @tail p c hp hc ih =>
    rcases Relation.reflTransGen_iff_eq_or_transGen.mp hnc with rfl | hunder
    · exact .inl (hp.tail hc)
    · exact ih (h.below_of_under hn (hm.trans hp) hc hunder)

theorem nodup_preorder (hp : s.Below r p) : (s.preorder p).Nodup := by
  induction hprogeny : s.progeny p using Nat.strong_induction_on generalizing p with
  | _ k ih =>
    subst hprogeny
    have hchild : ∀ c ∈ s.childrenOf p, s.Below r c := fun c hc => hp.child hc
    rw [h.preorder_eq hp]
    refine List.nodup_cons.mpr ⟨fun hmem => ?_, List.nodup_flatMap.mpr ⟨fun c hc => ?_, ?_⟩⟩
    · obtain ⟨c, hc, hpc⟩ := List.mem_flatMap.mp hmem
      have hback : s.Below c p := (h.mem_preorder_iff (hchild c hc)).mp hpc
      exact h.acyclic p hp (.head' ((h.children p hp c).mp hc) hback)
    · exact ih _ (h.progeny_lt hp hc) (hchild c hc) rfl
    · refine (h.once p hp).pairwise_of_forall_ne fun c hc d hd hne n hnc hnd => ?_
      -- one of the two children would be below the other one, and so its parent
      have hno : ∀ c ∈ s.childrenOf p, ∀ d ∈ s.childrenOf p, c ≠ d → ¬s.Below c d := by
        intro c hc d hd hne hcd
        have hunder : s.Under c d :=
          (Relation.reflTransGen_iff_eq_or_transGen.mp hcd).resolve_left hne.symm
        have hback := h.below_of_under (hchild c hc) hp ((h.children p hp d).mp hd) hunder
        exact h.acyclic p hp (.head' ((h.children p hp c).mp hc) hback)
      rcases h.below_or_under (hchild c hc) (hchild d hd)
        ((h.mem_preorder_iff (hchild c hc)).mp hnc) ((h.mem_preorder_iff (hchild d hd)).mp hnd) with
        hcd | hdc
      · exact hno c hc d hd hne hcd
      · exact hno d hd c hc hne.symm hdc

/-- What is further down is all of the pre-order but the operation itself. -/
theorem mem_tail_preorder_iff (hp : s.Below r p) : n ∈ (s.preorder p).tail ↔ s.Under p n := by
  rw [h.preorder_eq hp, List.tail_cons, List.mem_flatMap]
  constructor
  · rintro ⟨c, hc, hn⟩
    exact .head' ((h.children p hp c).mp hc) ((h.mem_preorder_iff (hp.child hc)).mp hn)
  · intro hunder
    obtain ⟨c, hc, hn⟩ := Relation.TransGen.head'_iff.mp hunder
    exact ⟨c, (h.children p hp c).mpr hc, (h.mem_preorder_iff (hp.tail hc)).mpr hn⟩

end Treelike

/-! Paths. -/

/-- The operations from the one that holds an operation up to a root, where each is a child of the
next one. -/
inductive Path (s : Store) (r : NodeId) : NodeId → List NodeId → Prop
  | root : s.Path r r []
  | child {p c : NodeId} {path : List NodeId} (hc : c ∈ s.childrenOf p) (above : s.Path r p path) :
      s.Path r c (p :: path)

variable {path : List NodeId}

theorem Path.reaches (h : s.Path r m path) : s.Below r m := by
  induction h with
  | root => exact .refl
  | child hc _ ih => exact ih.child hc

/-- Every operation on the path is found. -/
theorem Path.below_of_mem (hpath : s.Path r m path) : ∀ n ∈ path, s.Below r n := by
  induction hpath with
  | root => exact fun n hn => nomatch hn
  | child hc above ih =>
    intro n hn
    rcases List.mem_cons.mp hn with rfl | hn
    · exact above.reaches
    · exact ih n hn

theorem Path.getLast? (h : s.Path r m path) : path.getLast?.getD m = r := by
  induction h with
  | root => rfl
  | child hc above ih => rwa [List.getLast?_cons, Option.getD_some]

namespace Treelike

variable (h : s.Treelike r)
include h

theorem exists_path (hm : s.Below r m) : ∃ path, s.Path r m path := by
  induction hm with
  | refl => exact ⟨[], .root⟩
  | @tail p c hp hc ih =>
    obtain ⟨path, hpath⟩ := ih
    exact ⟨p :: path, .child ((h.children p hp c).mpr hc) hpath⟩

/-- The operations on the path to another one are those that it is further down from. -/
theorem mem_path_iff (hpath : s.Path r m path) (hn : s.Below r n) : n ∈ path ↔ s.Under n m := by
  induction hpath with
  | root =>
    refine ⟨fun hmem => (nomatch hmem), fun hunder => ?_⟩
    obtain ⟨q, hq, hheld⟩ := Relation.TransGen.tail'_iff.mp hunder
    exact absurd hheld (h.root q (hn.trans hq))
  | @child p c path hc above ih =>
    have hheld := (h.children p above.reaches c).mp hc
    rw [List.mem_cons, ih]
    constructor
    · rintro (rfl | hunder)
      · exact .single hheld
      · exact hunder.tail hheld
    · intro hunder
      have hbelow := h.below_of_under hn above.reaches hheld hunder
      exact (Relation.reflTransGen_iff_eq_or_transGen.mp hbelow).imp_left Eq.symm

theorem nodup_path (hpath : s.Path r m path) : path.Nodup := by
  induction hpath with
  | root => exact List.nodup_nil
  | child hc above ih =>
    refine List.nodup_cons.mpr ⟨fun hmem => ?_, ih⟩
    exact h.acyclic _ above.reaches ((h.mem_path_iff above above.reaches).mp hmem)

/-- A path is no longer than the store. -/
theorem length_path_le (hpath : s.Path r m path) : path.length ≤ s.nodes.size := by
  have hsub : path ⊆ List.range s.nodes.size := fun n hn =>
    List.mem_range.mpr (h.lt_size (hpath.below_of_mem n hn))
  have hle := (List.subperm_of_subset (h.nodup_path hpath) hsub).length_le
  rwa [List.length_range] at hle

end Treelike
end Store

namespace Session

open Procedure

variable {s t u : Session} {r n m : NodeId} {path : List NodeId}

/-! The chain of parents. -/

/-- What is held by an operation that is alive is alive. -/
theorem isAlive_of_childrenOf {p c : NodeId} (hp : s.isAlive p = true) (hc : c ∈ s.store.childrenOf p)
    (hlt : c < s.store.nodes.size) : s.isAlive c = true := by
  have hheld : c ∈ s.store.holds p := by
    obtain ⟨node, d, ops, hnode, hd, ho, hmem⟩ := Store.mem_heldBy.mp (Store.mem_heldBy_of_childrenOf hc)
    have hcell : d ∈ node.cells := node.linkedCells_sublist.subset (List.mem_map_of_mem hd)
    simp only [Store.holds, hnode]
    exact List.mem_append_left _ (List.mem_flatMap.mpr ⟨d, hcell, by simpa [ho] using hmem⟩)
  obtain ⟨alive, hp, hall⟩ := Store.isAlive_iff.mp hp
  refine Store.isAlive_iff.mpr ⟨fun n => n = c ∨ alive n, .inl rfl, ?_⟩
  rintro n (rfl | hn)
  · exact ⟨hlt, .inr ⟨p, .inr hp, hheld⟩⟩
  · exact ⟨(hall n hn).1, (hall n hn).2.imp_right fun ⟨k, hk, hnk⟩ => ⟨k, .inr hk, hnk⟩⟩

section Treelike

variable (h : s.store.Treelike r)
include h

theorem isAlive_of_path (halive : s.isAlive r = true) (hpath : s.store.Path r m path) :
    s.isAlive m = true := by
  induction hpath with
  | root => exact halive
  | child hc above ih => exact isAlive_of_childrenOf ih hc (h.lt_size (above.reaches.child hc))

theorem parent?_of_path {p c : NodeId} (halive : s.isAlive r = true) (hc : c ∈ s.store.childrenOf p)
    (above : s.store.Path r p path) : s.parent? c = some p := by
  have hlink := h.linked p above.reaches c (Store.mem_heldBy_of_childrenOf hc)
  obtain ⟨node, hnode, hparent⟩ := Option.bind_eq_some_iff.mp hlink
  simp [parent?, hnode, hparent, isAlive_of_path h halive above]

variable (halive : s.isAlive r = true) (hparent : s.parent? r = none)
include halive hparent

/-- The chain of parents is the path. -/
theorem ancestorsUpTo_of_path (hpath : s.store.Path r m path) {k : Nat} (hk : path.length ≤ k) :
    s.ancestorsUpTo k m = path := by
  induction hpath generalizing k with
  | root => cases k <;> simp [ancestorsUpTo, hparent]
  | @child p c path hc above ih =>
    obtain ⟨k, rfl⟩ := Nat.exists_eq_succ_of_ne_zero (Nat.ne_zero_of_lt hk)
    rw [ancestorsUpTo, parent?_of_path h halive hc above]
    exact congrArg _ (ih (Nat.le_of_succ_le_succ hk))

theorem ancestors_of_path (hpath : s.store.Path r m path) : ancestors m none s = (.ok path, s) := by
  have hlength := h.length_path_le hpath
  have hchain : s.ancestors? m = some path := by
    rw [ancestors?, ancestorsUpTo_of_path h halive hparent hpath (hlength.trans (Nat.le_succ _)),
      if_pos hlength]
  simp only [ancestors, bind_apply, read_apply, hchain, ofOption_some_apply]

theorem root_of_path (hpath : s.store.Path r m path) : root m s = (.ok r, s) := by
  unfold root
  rw [bind_ok (ancestors_of_path h halive hparent hpath), hpath.getLast?]
  rfl

/-- The search for a kind takes the first one on the path. -/
theorem findAncestor?_of_path (hpath : s.store.Path r m path) (k : Kind) :
    findAncestor? m k s = (.ok (path.find? fun a => s.kind? a = some k), s) := by
  have hchain := ancestorsUpTo_of_path h halive hparent hpath
    ((h.length_path_le hpath).trans (Nat.le_succ _))
  unfold findAncestor?
  rw [bind_ok (read_apply s), hchain]
  cases hfind : path.find? fun a => s.kind? a = some k with
  | some a => rfl
  | none => exact bind_ok (ancestors_of_path h halive hparent hpath)

end Treelike

/-! What a check establishes. -/

theorem childFault?_ne_unexpectedParent {p c : NodeId} {child owner : Kind} :
    s.childFault? p c ≠ some (.unexpectedParent child owner) := by
  intro h
  obtain ⟨_, _, h⟩ := Option.bind_eq_some_iff.mp h
  obtain ⟨_, _, h⟩ := Option.bind_eq_some_iff.mp h
  split at h
  · cases h
  · split at h <;> cases h

theorem sharing?_ne_unexpectedParent {c : NodeId} {child owner : Kind} :
    s.sharing? c ≠ some (.unexpectedParent child owner) := by
  intro h
  obtain ⟨_, _, h⟩ := Option.map_eq_some_iff.mp h
  cases h

/-- A check that finds nothing leaves a tree, where only values that are no children may have got a
parent meanwhile. -/
theorem treelike_of_verify (hs : s.Orderly {}) (h : inquire r .verify s = (.ok (.violations []), t)) :
    t.store.Treelike r ∧ t.store.places ≤ t.store.budget := by
  obtain ⟨w, u, visited, hr, hswept, -, hnone, es, rfl⟩ := swept_of_verify hs h
  have hm : u.store.Materialized r := hswept.materialized
  obtain ⟨order, again, root, horder, hbelow, -, hagain, hverify⟩ := verifyTree_reports hm
  obtain ⟨⟨es', hrepeats⟩, -⟩ := hswept.repeats (.refl _) hm
  have hunexpected : ∀ v ∈ order.flatMap u.faults ++
      order.flatMap (u.sharings r (order.flatMap (u.store.heldBy .attached))),
      ∃ child owner, v = .unexpectedParent child owner := by
    have hsame : again = visited.flatMap fun v => v.2.report u :=
      Except.ok.inj (congrArg Prod.fst (hverify.symm.trans hrepeats))
    intro v hv
    exact hswept.visits.unexpected (.refl _) hnone.symm (hsame ▸ hagain.mem_iff.mpr hv)
  have hchildren : ∀ p, u.store.Below r p → ∀ c ∈ u.store.heldBy .attached p, u.store.Linked p c := by
    intro p hp
    refine (childFaults_eq_nil_iff hm hp).mp (List.eq_nil_iff_forall_not_mem.mpr fun v hv => ?_)
    have hfault : v ∈ u.faults p := List.mem_append_left _ hv
    obtain ⟨child, owner, rfl⟩ := hunexpected v
      (List.mem_append_left _ (List.mem_flatMap.mpr ⟨p, (hbelow p).mpr hp, hfault⟩))
    obtain ⟨c, -, hc⟩ := List.mem_filterMap.mp hv
    exact childFault?_ne_unexpectedParent hc
  obtain ⟨hnodup, hroot⟩ := (sharings_eq_nil_iff hm hbelow).mp fun c hc => by
    refine List.eq_nil_iff_forall_not_mem.mpr fun v hv => ?_
    obtain ⟨child, owner, rfl⟩ := hunexpected v
      (List.mem_append_right _ (List.mem_flatMap.mpr ⟨c, hc, hv⟩))
    obtain ⟨d, -, hd⟩ := List.mem_filterMap.mp hv
    exact sharing?_ne_unexpectedParent hd
  have hlinked : ∀ p, u.store.Below r p → ∀ c ∈ u.store.heldBy .attached p,
      u.store.link? c = some p := fun p hp c hc => (hchildren p hp c hc).1
  have hroots : ∀ p, u.store.Below r p → r ∉ u.store.heldBy .attached p := fun p hp hmem =>
    hroot ((mem_held_iff hbelow).mpr ⟨p, hp, hmem⟩)
  have hperm : ∀ p, u.store.Below r p → (u.store.childrenOf p).Perm (u.store.heldBy .attached p) := by
    intro p hp
    obtain ⟨node, hnode, -⟩ := hm p hp
    exact Store.childrenOf_perm hnode (hswept.orderly.distinct p node hnode)
  refine ⟨⟨⟨fun p hp => ?_, fun p hp => Store.acyclic_of_linked hlinked hroots hp⟩, hlinked, hroots,
    fun p hp => ?_, fun p hp c => (hperm p hp).mem_iff⟩, hswept.orderly.places_le_budget⟩
  · obtain ⟨node, hnode, hcells⟩ := hm p hp
    exact ⟨node, hnode, fun c hc => hcells _ (Node.mem_childCells_iff.mp hc)⟩
  · exact (hperm p hp).nodup_iff.mpr ((List.nodup_flatMap.mp hnodup).1 p ((hbelow p).mpr hp))

/-- Whether links are checked or not, and whatever the steps came to: once an operation without a parent
has been checked and nothing was found, walking up inverts walking down. The walk from it ends and comes to
each operation below it once. The parents of each of these are the path from the one that holds it up to
that root, so an operation is among them exactly where the other one is among its descendants; the topmost
one is the root, and the search for a kind gives the nearest one of it on the path, or nothing if there is
none. -/
theorem ancestors_invert_descendants {verifies : Bool} (hs : Reached verifies s)
    (h : inquire r .verify s = (.ok (.violations []), t)) (hstore : u.store = t.store)
    (halive : u.isAlive r = true) (hparent : u.parent? r = none) :
    ∃ order, descendantsAndSelf r none u = (.ok order, u) ∧ order.Nodup ∧
      (∀ n, n ∈ order ↔ u.store.Below r n) ∧
      ∀ m ∈ order, ∃ path, u.store.Path r m path ∧ ancestors m none u = (.ok path, u) ∧
        (∀ n ∈ order, ∃ below, descendants n none u = (.ok below, u) ∧ (n ∈ path ↔ m ∈ below)) ∧
        root m u = (.ok r, u) ∧
        ∀ k, ∃ found, findAncestor? m k u = (.ok found, u) ∧
          (∀ a, found = some a ↔ ∃ near far, path = near ++ a :: far ∧ u.kind? a = some k ∧
            ∀ b ∈ near, u.kind? b ≠ some k) ∧
          (found = none ↔ ∀ a ∈ path, u.kind? a ≠ some k) := by
  obtain ⟨htree, hplaces⟩ := treelike_of_verify hs.orderly h
  rw [← hstore] at htree hplaces
  have hunfolds := htree.toUnfolds
  refine ⟨u.store.preorder r, descendantsAndSelf_unfolds hunfolds hplaces .refl,
    htree.nodup_preorder .refl, fun n => htree.mem_preorder_iff .refl, fun m hm => ?_⟩
  obtain ⟨path, hpath⟩ := htree.exists_path ((htree.mem_preorder_iff .refl).mp hm)
  refine ⟨path, hpath, ancestors_of_path htree halive hparent hpath, fun n hn => ?_,
    root_of_path htree halive hparent hpath, fun k => ?_⟩
  · have hbelow := (htree.mem_preorder_iff .refl).mp hn
    refine ⟨_, descendants_unfolds hunfolds hplaces hbelow, ?_⟩
    rw [htree.mem_path_iff hpath hbelow, htree.mem_tail_preorder_iff hbelow]
  · refine ⟨_, findAncestor?_of_path htree halive hparent hpath k, fun a => ?_, ?_⟩
    · rw [List.find?_eq_some_iff_append]
      simp only [decide_eq_true_eq, Bool.not_eq_true', decide_eq_false_iff_not]
      constructor
      · rintro ⟨hk, near, far, hsplit, hnear⟩
        exact ⟨near, far, hsplit, hk, hnear⟩
      · rintro ⟨near, far, hsplit, hk, hnear⟩
        exact ⟨hk, near, far, hsplit, hnear⟩
    · simp [List.find?_eq_none]

/-- A statement in a block, which another block gets late. -/
def nestedBlocks : List Step :=
  [.build (emptyStatement (some "x")), .build (block (some "b") (.filled [.named "x"])),
    .build (block (some "r") (.deferred (.mk none none [.named "b"] [])))]

/-- The statement is two levels down, and both blocks are found from it. -/
theorem ancestors_invert_descendants_nested :
    ∃ t, inquire 2 .verify ((start true).after nestedBlocks) = (.ok (.violations []), t) ∧
      t.isAlive 2 = true ∧ t.parent? 2 = none ∧
      ∃ path, ancestors 0 none t = (.ok path, t) ∧ root 0 t = (.ok 2, t) ∧
        ∃ below, descendants 1 none t = (.ok below, t) ∧ (1 ∈ path ↔ 0 ∈ below) := by
  obtain ⟨t, hverify, hnamed, hsize, hnone, hb, hx⟩ : ∃ t,
      inquire 2 .verify ((start true).after nestedBlocks) = (.ok (.violations []), t) ∧
        t.node? "r" = some 2 ∧ 2 < t.store.nodes.size ∧ t.store.link? 2 = none ∧
        1 ∈ t.store.heldBy .attached 2 ∧ 0 ∈ t.store.heldBy .attached 1 :=
    ⟨_, violations?_eq_some (by decide +kernel), by decide +kernel, by decide +kernel, by decide +kernel,
      by decide +kernel, by decide +kernel⟩
  have halive : t.isAlive 2 = true := isAlive_of_node? hnamed hsize
  have hparent : t.parent? 2 = none :=
    Option.eq_none_iff_forall_ne_some.mpr fun p hp => by simp [link?_of_parent? hp] at hnone
  obtain ⟨order, -, -, horder, hall⟩ :=
    ancestors_invert_descendants (Reached.start.after nestedBlocks) hverify rfl halive hparent
  have hone : t.store.Below 2 1 := .single hb
  obtain ⟨path, -, hpath, hinverse, hroot, -⟩ := hall 0 ((horder 0).mpr (hone.tail hx))
  obtain ⟨below, hbelow, hiff⟩ := hinverse 1 ((horder 1).mpr hone)
  exact ⟨t, hverify, halive, hparent, path, hpath, hroot, below, hbelow, hiff⟩

end Session
end BoundTree
