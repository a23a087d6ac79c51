import BoundTree.Proofs.Adoption

/-!
Parents, as the links of operations give them. Main statements: as long as no check stopped a step, a
parent holds its children, no one else does, and parents are followed to an end, unless a lazy slot led
back up or dropped a value; and what is held apart from the children has no link until a child slot takes
it.
-/
namespace BoundTree.Session

open Procedure

/-! Chains of parents. -/

/-- The one operation is the other one, or below it, as the links of operations say. -/
def Below (s : Session) : NodeId → NodeId → Prop :=
  Relation.ReflTransGen fun n p => s.parent? n = some p

theorem isChain_ancestorsUpTo (s : Session) (k : Nat) (n : NodeId) :
    (n :: s.ancestorsUpTo k n).IsChain fun n p => s.parent? n = some p := by
  induction k generalizing n with
  | zero => exact .singleton n
  | succ k ih =>
    rw [ancestorsUpTo]
    split
    · next p hp => exact .cons_cons hp (ih p)
    · exact .singleton n

theorem link?_of_parent? {s : Session} {n p : NodeId} (h : s.parent? n = some p) :
    s.store.link? n = some p := by
  obtain ⟨node, hnode, h⟩ := Option.bind_eq_some_iff.mp h
  obtain ⟨q, hq, h⟩ := Option.bind_eq_some_iff.mp h
  split at h
  · cases h
    exact Option.bind_eq_some_iff.mpr ⟨node, hnode, hq⟩
  · cases h

/-- A chain of parents without an end goes in a circle. -/
theorem exists_circle {s : Session} {n : NodeId} (h : s.ancestors? n = none) :
    ∃ m, s.Below n m ∧ Relation.TransGen (fun n p => s.parent? n = some p) m m := by
  let chain := s.ancestorsUpTo (s.store.nodes.size + 1) n
  have hlength : s.store.nodes.size < chain.length := by
    unfold ancestors? at h
    dsimp only at h
    split at h
    · cases h
    · next hlt => exact Nat.lt_of_not_le hlt
  have hchain : (n :: chain).Pairwise (Relation.TransGen fun n p => s.parent? n = some p) :=
    ((s.isChain_ancestorsUpTo _ n).imp fun _ _ h => .single h).pairwise
  obtain ⟨hfrom, hpairs⟩ := List.pairwise_cons.mp hchain
  by_contra hno
  push Not at hno
  -- without a circle no operation comes twice, and there are not enough of them
  have hnodup : chain.Nodup := by
    refine hpairs.imp_of_mem fun ha _ hab heq => ?_
    subst heq
    exact hno _ (hfrom _ ha).to_reflTransGen hab
  have hsubset : chain ⊆ List.range s.store.nodes.size := by
    intro m hm
    obtain ⟨k, -, hk⟩ := Relation.TransGen.tail'_iff.mp (hfrom m hm)
    exact List.mem_range.mpr (parent?_lt hk)
  have hle := (List.subperm_of_subset hnodup hsubset).length_le
  rw [List.length_range] at hle
  exact absurd hlength (Nat.not_lt.mpr hle)

/-- On a circle some link leads to an operation that is no younger. -/
theorem exists_descent {s : Session} {m : NodeId}
    (h : Relation.TransGen (fun n p => s.parent? n = some p) m m) :
    ∃ k q, s.Below m k ∧ s.parent? k = some q ∧ s.Below q k ∧ q ≤ k := by
  by_contra hno
  push Not at hno
  have hup : ∀ k, Relation.TransGen (fun n p => s.parent? n = some p) m k → s.Below k m → m < k := by
    intro k hk
    induction hk with
    | single hk => exact fun hback => hno m _ .refl hk hback
    | @tail b c hb hbc ih =>
      intro hback
      have hbm : s.Below b m := .head hbc hback
      have hmb : s.Below m b := hb.to_reflTransGen
      exact (ih hbm).trans (hno b c hmb hbc (hback.trans hmb))
  exact lt_irrefl _ (hup m h .refl)

/-- What an operation takes at an age beyond its own it takes from a lazy slot. -/
theorem Takes.deferred {verifies : Bool} {s : Session} (hs : Reached verifies s) {p n : NodeId}
    {c : CellId} (h : s.Takes p c n) (hle : p ≤ n) :
    ∃ producer runs finished published,
      s.store.content? c = some (.deferred producer runs finished published) := by
  obtain ⟨⟨node, hnode, hc⟩, hn⟩ := h
  have hmem : c ∈ node.cells := node.linkedCells_sublist.subset (List.mem_map_of_mem hc)
  have haccount := hs.accounted c
  unfold Accounted at haccount
  rw [Store.published?_eq_content?] at hn
  cases ha : s.store.content? c with
  | none =>
    rw [ha] at hn haccount
    rcases hn with hn | ⟨run, hrun⟩
    · simp at hn
    · have hnone : s.reports c = [] := haccount
      simp [hnone] at hrun
  | some a =>
    rw [ha] at hn haccount
    cases a with
    | deferred producer runs finished published => exact ⟨_, _, _, _, rfl⟩
    | filled ops =>
      rcases hn with hn | ⟨run, hrun⟩
      · exact absurd (hs.present.filled hnode hmem ha hn) (Nat.not_lt.mpr hle)
      · have hreports : Content.Accounted (.filled ops) (s.reports c) := haccount
        generalize s.reports c = reports at hreports hrun
        cases hreports
        cases hrun

/-- The chain of parents of an operation has an end, and walks up come to theirs. -/
def Ends (s : Session) (n : NodeId) : Prop :=
  (∃ chain, ancestors n none s = (.ok chain, s)) ∧ (∃ r, root n s = (.ok r, s)) ∧
    ∀ k, ∃ a, findAncestor? n k s = (.ok a, s)

theorem ends_of_ancestors? {s : Session} {n : NodeId} {chain : List NodeId}
    (h : s.ancestors? n = some chain) : s.Ends n := by
  have hall : ancestors n none s = (.ok chain, s) := by
    simp only [ancestors, bind_apply, read_apply, h, ofOption_some_apply]
  refine ⟨⟨chain, hall⟩, ⟨chain.getLast?.getD n, ?_⟩, fun k => ?_⟩
  · unfold root
    rw [bind_ok hall]
    rfl
  · unfold findAncestor?
    rw [bind_ok (read_apply s)]
    cases (s.ancestorsUpTo (s.store.nodes.size + 1) n).find? fun a => s.kind? a = some k with
    | some a => exact ⟨some a, rfl⟩
    | none => exact ⟨none, bind_ok hall⟩

theorem isAlive_of_node? {s : Session} {id : String} {n : NodeId} (h : s.node? id = some n)
    (hn : n < s.store.nodes.size) : s.isAlive n = true := by
  obtain ⟨b, hb, rfl⟩ := Option.map_eq_some_iff.mp h
  refine Store.isAlive_iff.mpr ⟨(· = b.2), rfl, fun m hm => ⟨hm ▸ hn, .inl ?_⟩⟩
  have hbound : b.2 ∈ s.bindings.map (·.2) := List.mem_map_of_mem (List.mem_of_find?_eq_some hb)
  rw [hm]
  exact List.mem_append_left _ (List.mem_append_left _ hbound)

/-- An operation that has a name is the parent of what is linked to it. -/
theorem parent?_of_node? {s : Session} (id : String) {n p : NodeId} (h : s.node? id = some p)
    (hlink : s.store.link? n = some p) (hp : p < s.store.nodes.size) : s.parent? n = some p := by
  obtain ⟨node, hnode, hparent⟩ := Option.bind_eq_some_iff.mp hlink
  simp [parent?, hnode, hparent, isAlive_of_node? h hp]

/-- The parents of an operation that is its own parent have no end. -/
theorem ancestors?_of_parent? {s : Session} {n : NodeId} (h : s.parent? n = some n) :
    s.ancestors? n = none := by
  have hlength : ∀ k, (s.ancestorsUpTo k n).length = k := by
    intro k
    induction k with
    | zero => rfl
    | succ k ih => rw [ancestorsUpTo, h, List.length_cons, ih]
  simp [ancestors?, hlength]

/-- A block takes a statement. -/
def oneParent : List Step :=
  [.build (emptyStatement (some "x")), .build (block (some "b") (.filled [.named "x"]))]

/-- A block takes a statement twice. -/
def repeatedOperand : List Step :=
  [.build (emptyStatement (some "x")),
    .build (block (some "b") (.filled [.named "x", .named "x"]))]

/-- The first run of the one slot of a block comes to a value after the second. -/
def droppedValue : List Step :=
  [.build (emptyStatement (some "x")), .build (emptyStatement (some "y")),
    .build (block (some "b") (.deferred (.mk none (some "b") [.named "x"] [[.named "y"]]))),
    .ask "b" (.children none)]

/-- The producer of the one slot of a block gives the block. -/
def ownChild : List Step :=
  [.build (block (some "b") (.deferred (.mk none none [.named "b"] []))), .ask "b" (.children none)]

theorem construct_unlinked {s t : Session} (hv : s.verifies = true) {header : Header}
    {payload : Payload} {cells : List CellId} {n : NodeId}
    (h : construct header payload cells s = (.ok n, t)) {x : NodeId}
    (hx : x ∈ t.store.heldBy .detached n) : t.store.link? x = none := by
  obtain ⟨rfl, rfl, -, hviolation⟩ := construct_eq_ok h
  exact (constructionViolation?_eq_none.mp hviolation hv).2 x hx

theorem offer_unlinked {s t : Session} (hv : s.verifies = true) {c : CellId} {p : NodeId}
    (howner : s.store.owner? c = some ⟨p, .detached⟩) (hp : (s.store.node? p).isSome)
    (hnone : s.store.published? c = none) {run : Nat} {candidate ops : List NodeId}
    (h : (finishRun c run >>= fun _ => offer c run candidate) s = (.ok ops, t)) {x : NodeId}
    (hx : x ∈ ops) : t.store.link? x = none := by
  obtain ⟨cell, hc, -⟩ := Option.bind_eq_some_iff.mp howner
  obtain ⟨node, hnode⟩ := Option.isSome_iff_exists.mp hp
  obtain ⟨rfl, hviolation, rfl⟩ := (offer_eq_ok hc).mp h
  rw [hnone, Option.getD_none] at hx
  unfold publicationViolation? at hviolation
  rw [hnone, howner] at hviolation
  dsimp only at hviolation
  rw [if_pos hv] at hviolation
  have hcheck := List.findSome?_eq_none_iff.mp hviolation x hx
  rw [checkLink_detached] at hcheck
  obtain ⟨node', hnode', -⟩ := (s.le_settle c run candidate).node hnode
  exact (valueFault?_eq_none hnode').mp hcheck

/-- With the checks on: what an operation holds apart from its children when it is built has no link then,
nor has the value of such a slot when it comes; and at any moment such a value has no parent, unless some
operation takes it in a child slot, or a value for such a slot was dropped. -/
theorem values_unlinked {s : Session} (hs : (start true).Changes s) :
    (∀ header payload cells n t, construct header payload cells s = (.ok n, t) →
      ∀ x ∈ t.store.heldBy .detached n, t.store.link? x = none) ∧
    (∀ c p run candidate ops t, s.store.owner? c = some ⟨p, .detached⟩ →
      s.store.published? c = none →
        (finishRun c run >>= fun _ => offer c run candidate) s = (.ok ops, t) →
          ∀ x ∈ ops, t.store.link? x = none) ∧
    ∀ p, ∀ x ∈ s.store.heldBy .detached p, (∀ q c, ¬s.Takes q c x) → s.parent? x = none := by
  have hadopted : s.Adopted := hs.keeps Change.adopted (adopted_start true)
  refine ⟨fun header payload cells n t h x hx => construct_unlinked hs.verifies h hx,
    fun c p run candidate ops t howner hnone h x hx => ?_, fun p x _ hfree => ?_⟩
  · obtain ⟨node, hnode, -⟩ := hadopted.owner howner
    exact offer_unlinked hs.verifies howner (by simp [hnode]) hnone h hx
  · refine Option.eq_none_iff_forall_ne_some.mpr fun q hq => ?_
    obtain ⟨c, hc⟩ := hadopted.link (link?_of_parent? hq)
    exact hfree q c hc

/-- A statement is the condition of a switch case, and then a block takes it. -/
def takenCondition : List Step :=
  [.build (emptyStatement (some "x")), .build (switchCase (some "c") (.filled [.named "x"])),
    .build (block (some "b") (.filled [.named "x"]))]

/-- Before the block comes, the condition has no parent. -/
theorem values_unlinked_condition :
    (start true).Changes ((start true).after (takenCondition.take 2)) ∧
      0 ∈ ((start true).after (takenCondition.take 2)).store.heldBy .detached 1 ∧
      ((start true).after (takenCondition.take 2)).parent? 0 = none := by
  have hs : (start true).Changes ((start true).after (takenCondition.take 2)) :=
    (Reached.start.after _).holds .refl fun hc h => h.tail hc
  have hheld : 0 ∈ ((start true).after (takenCondition.take 2)).store.heldBy .detached 1 := by decide
  refine ⟨hs, hheld, (values_unlinked hs).2.2 1 0 hheld ?_⟩
  rintro q c ⟨⟨node, hnode, hc⟩, hn | ⟨run, hrun⟩⟩
  · have hq : q < 2 := Store.node?_lt hnode
    have hfree : ∀ q < 2, 0 ∉ ((start true).after (takenCondition.take 2)).store.heldBy .attached q := by
      decide
    refine hfree q hq (Store.mem_heldBy.mpr ?_)
    cases ho : ((start true).after (takenCondition.take 2)).store.published? c with
    | none => simp [ho] at hn
    | some ops => exact ⟨node, c, ops, hnode, hc, ho, by simpa [ho] using hn⟩
  · have hevents : ((start true).after (takenCondition.take 2)).events = [] := rfl
    simp [reports, hevents] at hrun

/-- What a switch case holds as its condition may get a parent later, although no step fails. -/
theorem values_unlinked_not_later :
    ((start true).run takenCondition).all (·.answer.isOk) ∧
      ((start true).after takenCondition).isAlive 1 = true ∧
      0 ∈ ((start true).after takenCondition).store.heldBy .detached 1 ∧
      ((start true).after takenCondition).parent? 0 = some 2 := by
  have hcase : ((start true).after takenCondition).node? "c" = some 1 := by decide
  exact ⟨by decide, isAlive_of_node? hcase (by decide), by decide,
    parent?_of_node? "b" (by decide) (by decide) (by decide)⟩

end BoundTree.Session
