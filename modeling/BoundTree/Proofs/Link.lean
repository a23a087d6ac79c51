import BoundTree.Proofs.Procedure

/-!
What is wrong with the link of an operation to the one that holds it, and when nothing is.
-/
namespace BoundTree

/-- Operations belong to one semantic model, unless one of them is synthetic. -/
def Store.ModelsAgree (s : Store) (p c : NodeId) : Prop :=
  ∀ parent child, s.node? p = some parent → s.node? c = some child →
    child.kind.isSynthetic ∨ parent.kind.isSynthetic ∨ child.header.model = parent.header.model

/-- The child points at the operation that holds it, and belongs to it. -/
def Store.Linked (s : Store) (p c : NodeId) : Prop := s.link? c = some p ∧ s.ModelsAgree p c

namespace Session

/-- What is wrong with a child of an operation. -/
def childFault? (s : Session) (p c : NodeId) : Option LinkViolation := do
  let parent ← s.store.node? p
  let child ← s.store.node? c
  if child.parent ≠ some p then
    some (.wrongParent child.kind parent.kind ((s.parent? c).bind s.kind?))
  else if ¬child.kind.isSynthetic ∧ ¬parent.kind.isSynthetic ∧
      child.header.model ≠ parent.header.model then
    some (.modelMismatch child.kind parent.kind child.header.model parent.header.model)
  else none

/-- What is wrong with a value that an operation holds apart from its children. -/
def valueFault? (s : Session) (p c : NodeId) : Option LinkViolation := do
  let owner ← s.store.node? p
  let value ← s.store.node? c
  if value.parent.isSome then some (.unexpectedParent value.kind owner.kind) else none

theorem checkLink_attached (s : Session) (p c : NodeId) :
    s.checkLink p .attached c = s.childFault? p c := by
  unfold checkLink childFault? linkFacts?
  cases hp : s.store.node? p with
  | none => rfl
  | some parent =>
    cases hc : s.store.node? c with
    | none => rfl
    | some child =>
      simp only [Option.map_some, Option.bind_eq_bind, Option.bind_some, LinkFacts.agree, ne_eq]
      split
      · congr 2
        cases s.parent? c with
        | none => rfl
        | some a => cases ha : s.store.node? a <;> simp [kind?, ha]
      · congr 1
        simp only [Bool.or_eq_true, decide_eq_true_eq, not_or, and_assoc]

theorem checkLink_detached (s : Session) (p c : NodeId) :
    s.checkLink p .detached c = s.valueFault? p c := by
  unfold checkLink valueFault? linkFacts?
  cases s.store.node? p with
  | none => rfl
  | some owner => cases s.store.node? c <;> rfl

theorem childFault?_eq_none {s : Session} {p c : NodeId} {parent child : Node}
    (hp : s.store.node? p = some parent) (hc : s.store.node? c = some child) :
    s.childFault? p c = none ↔ s.store.Linked p c := by
  have hlink : s.store.link? c = child.parent := by simp [Store.link?, hc]
  have hmodels : s.store.ModelsAgree p c ↔ (child.kind.isSynthetic ∨ parent.kind.isSynthetic ∨
      child.header.model = parent.header.model) := by
    constructor
    · exact fun h => h parent child hp hc
    · intro h parent' child' hp' hc'
      cases hp.symm.trans hp'
      cases hc.symm.trans hc'
      exact h
  rw [Store.Linked, hlink, hmodels]
  simp only [childFault?, hp, hc, Option.bind_eq_bind, Option.bind_some]
  by_cases hl : child.parent = some p
  · simp only [hl, ne_eq, not_true_eq_false, if_false, true_and]
    by_cases ha : child.kind.isSynthetic ∨ parent.kind.isSynthetic ∨
        child.header.model = parent.header.model
    · simp only [ha, iff_true]
      rw [if_neg]
      tauto
    · simp only [ha, iff_false]
      rw [if_pos (by tauto)]
      simp
  · simp [hl]

theorem valueFault?_eq_none {s : Session} {p c : NodeId} {owner : Node}
    (hp : s.store.node? p = some owner) : s.valueFault? p c = none ↔ s.store.link? c = none := by
  unfold valueFault? Store.link?
  rw [hp]
  cases hc : s.store.node? c with
  | none => simp
  | some value => cases hv : value.parent <;> simp [hv]

/-- The values of slots of a linkage are their positions of that linkage. -/
theorem filterMap_positions (s : Session) (l : Linkage) (cells : List (Linkage × CellId)) :
    (s.positions cells).filterMap (fun n => if n.1 = l then some n.2 else none) =
      s.store.heldIn l cells := by
  induction cells with
  | nil => rfl
  | cons c cells ih =>
    rw [positions_cons, Store.heldIn_cons, List.filterMap_append, ih, List.filterMap_map]
    congr 1
    by_cases h : c.1 = l <;> simp [h]

theorem mem_positions {s : Session} {l : Linkage} {cells : List (Linkage × CellId)} {n : NodeId} :
    (l, n) ∈ s.positions cells ↔ n ∈ s.store.heldIn l cells := by
  rw [← filterMap_positions, List.mem_filterMap]
  constructor
  · exact fun h => ⟨_, h, by simp⟩
  · rintro ⟨⟨l', m⟩, hm, h⟩
    by_cases hl : l' = l
    · simp only [hl, if_true, Option.some.injEq] at h
      rw [← hl, ← h]
      exact hm
    · simp [hl] at h

/-- A new operation holds what its slots hold already. -/
theorem heldBy_withOperation (s : Session) (header : Header) (p : Payload) (cs : List CellId)
    (l : Linkage) : (s.withOperation header p cs).store.heldBy l s.store.nodes.size =
      s.store.heldIn l ((p.shape.slots.map (·.linkage)).zip cs) := by
  have hnode := s.store.node?_addOperation header p cs s.store.nodes.size
  rw [if_pos rfl, Option.map_some] at hnode
  have hcells : ((s.withOperation header p cs).store.node? s.store.nodes.size).elim []
      (·.linkedCells) = (p.shape.slots.map (·.linkage)).zip cs := by
    rw [Session.withOperation, hnode, Option.elim_some]
    split <;> rfl
  rw [Store.heldBy, hcells]
  exact Store.heldIn_congr fun c _ => s.store.published?_addOperation header p cs c.2

/-- What the check of a new operation is about: its children point at it and belong to it, and what it
holds apart from them points at nothing. -/
theorem constructionViolation?_eq_none {s : Session} {header : Header} {p : Payload} {cs : List CellId} :
    s.constructionViolation? header p cs = none ↔ (s.verifies = true →
      (∀ n ∈ (s.withOperation header p cs).store.heldBy .attached s.store.nodes.size,
        n ≤ s.store.nodes.size → (s.withOperation header p cs).store.Linked s.store.nodes.size n) ∧
      ∀ n ∈ (s.withOperation header p cs).store.heldBy .detached s.store.nodes.size,
        (s.withOperation header p cs).store.link? n = none) := by
  -- while it is checked the operation is in use
  let t : Session := { s.withOperation header p cs with held := .node s.store.nodes.size :: s.held }
  have hsize : t.store.nodes.size = s.store.nodes.size + 1 := s.store.size_addOperation header p cs
  obtain ⟨node, hnode⟩ := Option.isSome_iff_exists.mp
    (Store.node?_isSome ((Nat.lt_succ_self _).trans_eq hsize.symm))
  have hheld : ∀ {l n}, (l, n) ∈ t.positions node.linkedCells ↔
      n ∈ t.store.heldBy l s.store.nodes.size := by
    intro l n
    rw [mem_positions, Store.heldBy, hnode, Option.elim_some]
  have hattached : ∀ n, t.checkLink s.store.nodes.size .attached n = none ↔
      (n ≤ s.store.nodes.size → t.store.Linked s.store.nodes.size n) := by
    intro n
    rw [checkLink_attached]
    cases hn : t.store.node? n with
    | none =>
      have hlt : ¬n ≤ s.store.nodes.size := fun hle => by
        have hthere := Store.node?_isSome ((Nat.lt_succ_of_le hle).trans_eq hsize.symm)
        simp [hn] at hthere
      simp [childFault?, hn, hlt]
    | some child =>
      have hle : n ≤ s.store.nodes.size := Nat.lt_succ_iff.mp ((Store.node?_lt hn).trans_eq hsize)
      rw [childFault?_eq_none hnode hn]
      exact ⟨fun h _ => h, fun h => h hle⟩
  have hdetached : ∀ n, t.checkLink s.store.nodes.size .detached n = none ↔
      t.store.link? n = none := fun n => by rw [checkLink_detached, valueFault?_eq_none hnode]
  have hcells : ((t.store.node? s.store.nodes.size).map (·.linkedCells)).getD [] = node.linkedCells := by
    rw [hnode]
    rfl
  unfold Session.constructionViolation?
  dsimp only [t] at hcells
  dsimp only
  rw [hcells]
  cases s.verifies with
  | false => simp
  | true =>
    rw [if_pos rfl, List.findSome?_eq_none_iff]
    constructor
    · intro h _
      constructor
      · intro n hn
        exact (hattached n).mp (h (.attached, n) (hheld.mpr hn))
      · intro n hn
        exact (hdetached n).mp (h (.detached, n) (hheld.mpr hn))
    · rintro h ⟨l, n⟩ hn
      cases l with
      | attached => exact (hattached n).mpr ((h rfl).1 n (hheld.mp hn))
      | detached => exact (hdetached n).mpr ((h rfl).2 n (hheld.mp hn))

end Session
end BoundTree
