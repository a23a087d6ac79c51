import BoundTree.Proofs.Exactness

/-!
Spans by how they come about: between two bounds, as the cover of two spans, or read. Main statement: the bounds
are out of order exactly if they were read so. A span in order has a length, and where one of two spans is in
order, what contains their cover is what contains both.
-/
namespace BoundTree
namespace Span

/-! Bounds as natural numbers. -/

theorem toNat_min (a b : UInt32) : (min a b).toNat = min a.toNat b.toNat := by
  have hmin : min a b = if a ≤ b then a else b := rfl
  simp only [hmin, apply_ite UInt32.toNat, UInt32.le_iff_toNat_le, Nat.min_def]

theorem toNat_max (a b : UInt32) : (max a b).toNat = max a.toNat b.toNat := by
  have hmax : max a b = if a ≤ b then b else a := rfl
  simp only [hmax, apply_ite UInt32.toNat, UInt32.le_iff_toNat_le, Nat.max_def]

theorem ordered_iff {s : Span} : s.Ordered ↔ s.start.toNat ≤ s.stop.toNat := UInt32.le_iff_toNat_le

theorem contains_iff {s t : Span} : s.contains t = true ↔
    s.start.toNat ≤ t.start.toNat ∧ t.stop.toNat ≤ s.stop.toNat := by
  rw [contains, Bool.and_eq_true, decide_eq_true_eq, decide_eq_true_eq, UInt32.le_iff_toNat_le,
    UInt32.le_iff_toNat_le]

theorem isEmpty_iff {s : Span} : s.isEmpty = true ↔ s.start.toNat = s.stop.toNat := by
  rw [isEmpty, beq_iff_eq, UInt32.toNat_inj]

/-! Lengths. -/

theorem length?_of_ordered {s : Span} (h : s.Ordered) :
    ∃ n, s.length? = some n ∧ s.start.toNat + n.toNat = s.stop.toNat := by
  have hlength : (s.stop - s.start).toNat = s.stop.toNat - s.start.toNat := UInt32.toNat_sub_of_le _ _ h
  rw [ordered_iff] at h
  exact ⟨s.stop - s.start, if_pos (ordered_iff.mpr h), by omega⟩

theorem length?_of_not_ordered {s : Span} (h : ¬s.Ordered) : s.length? = none := if_neg h

theorem not_isEmpty_of_not_ordered {s : Span} (h : ¬s.Ordered) : s.isEmpty = false := by
  rw [ordered_iff] at h
  rw [← Bool.not_eq_true, isEmpty_iff]
  omega

theorem isEmpty_iff_length? {s : Span} (h : s.Ordered) : s.isEmpty = true ↔ s.length? = some 0 := by
  obtain ⟨n, hn, hvalue⟩ := length?_of_ordered h
  rw [ordered_iff] at h
  rw [isEmpty_iff, hn, Option.some_inj, ← UInt32.toNat_inj, UInt32.toNat_zero]
  omega

/-! Covers. -/

theorem ordered_cover (s t : Span) : (s.cover t).Ordered := ordered_make _ _

/-- The bounds of a cover, where the lower start is not past the higher end. -/
theorem cover_eq {s t : Span} (h : min s.start.toNat t.start.toNat ≤ max s.stop.toNat t.stop.toNat) :
    s.cover t = ⟨min s.start t.start, max s.stop t.stop⟩ := by
  refine if_pos ?_
  rwa [UInt32.le_iff_toNat_le, toNat_min, toNat_max]

/-- What contains a cover is what contains both spans, exactly if the lower start is not past the higher end.
Otherwise the span from that start to that end contains both and not their cover. -/
theorem contains_cover_iff {s t : Span} :
    (∀ u : Span, u.contains (s.cover t) = true ↔ u.contains s = true ∧ u.contains t = true) ↔
      min s.start.toNat t.start.toNat ≤ max s.stop.toNat t.stop.toNat := by
  constructor
  · intro hlaw
    have hjoin := hlaw ⟨min s.start t.start, max s.stop t.stop⟩
    have hcover : (s.cover t).start.toNat ≤ (s.cover t).stop.toNat := ordered_iff.mp (ordered_cover s t)
    simp only [contains_iff, toNat_min, toNat_max] at hjoin
    omega
  · intro h u
    rw [cover_eq h]
    simp only [contains_iff, toNat_min, toNat_max]
    omega

/-! How spans come about. -/

inductive Making
  | between (a b : UInt32)
  | cover (m n : Making)
  | read (j : Json)
  /-- The span of a place that is read. -/
  | readLocus (j : Json)

namespace Making

/-- The span that is made, if what is read is accepted. -/
def span? : Making → Option Span
  | .between a b => some (make a b)
  | .cover m n => m.span?.bind fun s => n.span?.map fun t => s.cover t
  | .read j => Wire.read? j
  | .readLocus j => (Wire.read? j : Option Locus).map Locus.span

/-- What is read spells a span that starts past its end. -/
inductive Reversed : Making → Prop
  | read {j : Json} {s : Span} (hj : Wire.spanForm.Spells j (Wire.write s)) (h : s.stop < s.start) :
      Reversed (.read j)
  | readLocus {j : Json} {l : Locus} (hj : Wire.locusForm.Spells j (Wire.write l))
      (h : l.span.stop < l.span.start) : Reversed (.readLocus j)

theorem ordered_iff_not_reversed {m : Making} {s : Span} (hs : m.span? = some s) :
    s.Ordered ↔ ¬m.Reversed := by
  cases m with
  | between a b =>
    cases hs
    exact ⟨fun _ => nofun, fun _ => ordered_make a b⟩
  | cover m n =>
    obtain ⟨t, -, hs⟩ := Option.bind_eq_some_iff.mp hs
    obtain ⟨t', -, rfl⟩ := Option.map_eq_some_iff.mp hs
    exact ⟨fun _ => nofun, fun _ => ordered_cover t t'⟩
  | read j =>
    constructor
    · intro hordered hreversed
      cases hreversed with
      | read hj h =>
        obtain rfl := (Wire.exact_span _).unique hs hj
        exact UInt32.not_le.mpr h hordered
    · exact fun h => UInt32.not_lt.mp fun hlt => h (.read (((Wire.exact_span s).reads_iff j).mp hs) hlt)
  | readLocus j =>
    obtain ⟨l, hl, rfl⟩ := Option.map_eq_some_iff.mp hs
    constructor
    · intro hordered hreversed
      cases hreversed with
      | readLocus hj h =>
        obtain rfl := (Wire.exact_locus _).unique hl hj
        exact UInt32.not_le.mpr h hordered
    · exact fun h => UInt32.not_lt.mp fun hlt => h (.readLocus (((Wire.exact_locus l).reads_iff j).mp hl) hlt)

/-- A span is in order unless it was read with its bounds reversed; then it has no length. What contains a cover
is what contains both spans, unless both were read with their bounds reversed and each starts past the ends of
both. -/
theorem laws_hold {m n : Making} {s t : Span} (hs : m.span? = some s) (ht : n.span? = some t) :
    (s.Ordered ↔ ¬m.Reversed) ∧
    (¬m.Reversed → (∃ k, s.length? = some k ∧ s.start.toNat + k.toNat = s.stop.toNat) ∧
      (s.isEmpty = true ↔ s.length? = some 0)) ∧
    (m.Reversed → s.length? = none ∧ s.isEmpty = false) ∧
    (¬(m.Reversed ∧ n.Reversed) →
      ∀ u : Span, u.contains (s.cover t) = true ↔ u.contains s = true ∧ u.contains t = true) ∧
    ((∀ u : Span, u.contains (s.cover t) = true ↔ u.contains s = true ∧ u.contains t = true) ↔
      min s.start.toNat t.start.toNat ≤ max s.stop.toNat t.stop.toNat) := by
  have hordered := ordered_iff_not_reversed hs
  have hordered' := ordered_iff_not_reversed ht
  refine ⟨hordered, fun h => ?_, fun h => ?_, fun h => ?_, contains_cover_iff⟩
  · exact ⟨length?_of_ordered (hordered.mpr h), isEmpty_iff_length? (hordered.mpr h)⟩
  · have hnot : ¬s.Ordered := fun hs => hordered.mp hs h
    exact ⟨length?_of_not_ordered hnot, not_isEmpty_of_not_ordered hnot⟩
  · rw [contains_cover_iff]
    rcases Classical.not_and_iff_not_or_not.mp h with h | h
    · have hle := ordered_iff.mp (hordered.mpr h)
      omega
    · have hle := ordered_iff.mp (hordered'.mpr h)
      omega

/-- One of two spans is read with its bounds reversed, as an array. -/
theorem laws_hold_oneReversed :
    (read (.arr [.int 10, .int 4])).span? = some ⟨10, 4⟩ ∧ (between 7 2).span? = some ⟨2, 7⟩ ∧
      ∀ u : Span, u.contains ⟨2, 7⟩ = true ↔ u.contains ⟨10, 4⟩ = true ∧ u.contains ⟨2, 7⟩ = true := by
  have hread : (read (.arr [.int 10, .int 4])).span? = some ⟨10, 4⟩ := rfl
  have hmade : (between 7 2).span? = some ⟨2, 7⟩ := rfl
  obtain ⟨-, -, -, hcover, -⟩ := laws_hold hread hmade
  exact ⟨hread, hmade, hcover fun h => nomatch h.2⟩

/-- Bounds are kept as they are read. -/
theorem laws_not_hold : (read (.obj [("start", .int 10), ("end", .int 4)])).span? = some ⟨10, 4⟩ ∧
    ¬(⟨10, 4⟩ : Span).Ordered ∧ (⟨10, 4⟩ : Span).length? = none ∧
    ¬∀ u : Span, u.contains ((⟨10, 4⟩ : Span).cover ⟨10, 4⟩) = true ↔
      u.contains ⟨10, 4⟩ = true ∧ u.contains ⟨10, 4⟩ = true := by
  refine ⟨rfl, by decide, rfl, fun h => ?_⟩
  exact absurd ((h ⟨10, 4⟩).mpr ⟨rfl, rfl⟩) (by decide)

end Making
end Span
end BoundTree
