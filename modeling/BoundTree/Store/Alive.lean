import BoundTree.Store.Basic

/-!
Which operations are alive: those that a root holds, or another operation that is alive. Operations that
hold each other in a circle keep each other alive when nothing else holds them. Main statement: letting
go of what nothing holds, until nothing more can be let go, leaves exactly what is alive.
-/
namespace BoundTree.Store

/-- There are operations, this one among them, each of which is held by a root or by one of them. -/
def Alive (s : Store) (roots : List NodeId) (n : NodeId) : Prop :=
  ∃ p : NodeId → Prop, p n ∧
    ∀ m, p m → m < s.nodes.size ∧ (m ∈ roots ∨ ∃ k, p k ∧ m ∈ s.holds k)

/-- Marks the places that are listed. -/
def marks (size : Nat) (ns : List NodeId) : Array Bool :=
  ns.foldl (fun m n => m.setIfInBounds n true) (Array.replicate size false)

/-- Those of some operations that a root or one of them holds. -/
def kept (s : Store) (roots ns : List NodeId) : List NodeId :=
  let held := marks s.nodes.size (roots ++ ns.flatMap s.holds)
  ns.filter fun n => held[n]?.getD false

/-- What is left when nothing more can be let go. -/
def survivors (s : Store) (roots ns : List NodeId) : List NodeId :=
  if (s.kept roots ns).length < ns.length then s.survivors roots (s.kept roots ns) else ns
  termination_by ns.length

def alive (s : Store) (roots : List NodeId) : List NodeId :=
  s.survivors roots (List.range s.nodes.size)

def isAlive (s : Store) (roots : List NodeId) (n : NodeId) : Bool := n ∈ s.alive roots

theorem getD_foldl_setIfInBounds (ns : List NodeId) (m : Array Bool) (n : NodeId) :
    (ns.foldl (fun m n => m.setIfInBounds n true) m)[n]?.getD false = true ↔
      m[n]?.getD false = true ∨ n ∈ ns ∧ n < m.size := by
  induction ns generalizing m with
  | nil => simp
  | cons k ns ih =>
    rw [List.foldl_cons, ih, Array.getElem?_setIfInBounds, Array.size_setIfInBounds]
    by_cases hk : k = n
    · subst hk
      by_cases hs : k < m.size <;> simp [hs]
    · have hn : n ≠ k := fun h => hk h.symm
      simp [hk, hn]

theorem getD_marks (size : Nat) (ns : List NodeId) (n : NodeId) :
    (marks size ns)[n]?.getD false = true ↔ n ∈ ns ∧ n < size := by
  unfold marks
  rw [getD_foldl_setIfInBounds, Array.getElem?_replicate]
  by_cases h : n < size <;> simp [h]

theorem mem_kept {s : Store} {roots ns : List NodeId} {n : NodeId} :
    n ∈ s.kept roots ns ↔
      n ∈ ns ∧ n < s.nodes.size ∧ (n ∈ roots ∨ ∃ k ∈ ns, n ∈ s.holds k) := by
  simp only [kept, List.mem_filter, getD_marks, List.mem_append, List.mem_flatMap]
  exact and_congr_right fun _ => and_comm

theorem kept_eq_self {s : Store} {roots ns : List NodeId}
    (h : ¬(s.kept roots ns).length < ns.length) : s.kept roots ns = ns := by
  have hle : ns.length ≤ (s.kept roots ns).length := Nat.not_lt.mp h
  exact (List.filter_sublist).eq_of_length_le hle

theorem survivors_supported (s : Store) (roots ns : List NodeId) :
    ∀ n ∈ s.survivors roots ns, n < s.nodes.size ∧
      (n ∈ roots ∨ ∃ k ∈ s.survivors roots ns, n ∈ s.holds k) := by
  fun_induction survivors s roots ns with
  | case1 ns h ih => exact ih
  | case2 ns h =>
    intro n hn
    rw [← kept_eq_self h] at hn
    exact (mem_kept.mp hn).2

theorem mem_survivors {s : Store} {roots : List NodeId} {p : NodeId → Prop}
    (hp : ∀ m, p m → m < s.nodes.size ∧ (m ∈ roots ∨ ∃ k, p k ∧ m ∈ s.holds k))
    (ns : List NodeId) (hns : ∀ m, p m → m ∈ ns) : ∀ m, p m → m ∈ s.survivors roots ns := by
  fun_induction survivors s roots ns with
  | case1 ns h ih =>
    refine ih fun m hm => mem_kept.mpr ⟨hns m hm, (hp m hm).1, ?_⟩
    rcases (hp m hm).2 with hr | ⟨k, hk, hmk⟩
    · exact Or.inl hr
    · exact Or.inr ⟨k, hns k hk, hmk⟩
  | case2 ns h => exact hns

theorem isAlive_iff {s : Store} {roots : List NodeId} {n : NodeId} :
    s.isAlive roots n = true ↔ s.Alive roots n := by
  simp only [isAlive, decide_eq_true_eq]
  constructor
  · intro h
    refine ⟨(· ∈ s.alive roots), h, ?_⟩
    intro m hm
    obtain ⟨hs, hr | ⟨k, hk, hmk⟩⟩ := survivors_supported s roots _ m hm
    · exact ⟨hs, Or.inl hr⟩
    · exact ⟨hs, Or.inr ⟨k, hk, hmk⟩⟩
  · rintro ⟨p, hn, hp⟩
    exact mem_survivors hp _ (fun m hm => List.mem_range.mpr (hp m hm).1) n hn

end BoundTree.Store
