import BoundTree.Proofs.Browsing

/-!
The child slots of an operation, as its shape declares them and as they are evaluated. Main statement: both
orders are the same, but for a loop that is tested at the bottom.
-/
namespace BoundTree

/-- The names of the child slots, in declaration order. -/
def Shape.slotNames (s : Shape) : List String :=
  (s.slots.filter (·.linkage = .attached)).map (·.name)

/-- Every child slot has its place in evaluation order. -/
theorem Payload.mem_evaluationOrder_of_linkage {p : Payload} {i : Nat}
    (h : p.shape.slots[i]?.map (·.linkage) = some .attached) : i ∈ p.evaluationOrder := by
  have hlt : i < p.shape.slots.length := by
    obtain ⟨field, hfield, -⟩ := Option.map_eq_some_iff.mp h
    exact (List.getElem?_eq_some_iff.mp hfield).1
  unfold evaluationOrder
  split
  · next hw =>
    rw [hw.1] at hlt
    have hthree : i < 3 := hlt
    simp only [List.mem_cons, List.not_mem_nil, or_false]
    omega
  · exact List.mem_filter.mpr ⟨List.mem_range.mpr hlt, by simpa using h⟩

namespace Node

/-- The child slots in declaration order, with their names. -/
def declaredSlots (n : Node) : List (String × CellId) :=
  (n.shape.slots.zip n.cells).filterMap fun x =>
    if x.1.linkage = .attached then some (x.1.name, x.2) else none

theorem mem_childCells_iff {n : Node} {c : CellId} :
    c ∈ n.childCells ↔ (.attached, c) ∈ n.linkedCells := by
  refine ⟨mem_linkedCells_of_childCells, fun h => ?_⟩
  obtain ⟨i, hi⟩ := List.mem_iff_getElem?.mp h
  rw [linkedCells, List.getElem?_zip_eq_some, List.getElem?_map] at hi
  exact List.mem_filterMap.mpr ⟨i, Payload.mem_evaluationOrder_of_linkage hi.1, hi.2⟩

theorem map_declaredSlots (n : Node) : n.declaredSlots.map (·.2) =
    n.linkedCells.filterMap fun c => if c.1 = .attached then some c.2 else none := by
  rw [declaredSlots, linkedCells, List.zip_map_left, List.map_filterMap, List.filterMap_map]
  refine List.filterMap_congr fun x _ => ?_
  by_cases hx : x.1.linkage = .attached <;> simp [hx]

theorem declaredSlots_perm {n : Node} (h : n.cells.Nodup) :
    (n.declaredSlots.map (·.2)).Perm n.childCells := by
  have hsub : (n.declaredSlots.map (·.2)).Sublist (n.linkedCells.map (·.2)) := by
    rw [map_declaredSlots]
    induction n.linkedCells with
    | nil => exact .slnil
    | cons c cells ih =>
      by_cases hc : c.1 = .attached
      · simpa [hc] using ih.cons_cons c.2
      · simpa [hc] using ih.cons c.2
  refine (List.perm_ext_iff_of_nodup ((hsub.trans n.linkedCells_sublist).nodup h)
    (nodup_childCells h)).mpr fun c => ?_
  rw [mem_childCells_iff, map_declaredSlots]
  simp

/-- Where no slot is missing, each child slot has its name. -/
theorem slotNames_declaredSlots {n : Node} (h : n.cells.length = n.shape.slots.length) :
    n.declaredSlots.map (·.1) = n.shape.slotNames := by
  unfold declaredSlots Shape.slotNames
  generalize n.shape.slots = fields at h ⊢
  generalize n.cells = cells at h ⊢
  induction fields generalizing cells with
  | nil => rfl
  | cons field fields ih =>
    cases cells with
    | nil => cases h
    | cons c cells =>
      have hrest := ih cells (Nat.succ.inj h)
      by_cases hl : field.linkage = .attached
      · simpa [hl] using hrest
      · simpa [hl] using hrest

/-- Slots are evaluated as they are declared. -/
theorem namedChildCells_eq {n : Node} (h : ¬(n.shape = .whileLoop ∧ ¬n.payload.flag "condition_is_top")) :
    n.namedChildCells = n.declaredSlots := by
  have hplaces : n.payload.evaluationOrder = n.payload.childPlaces := if_neg h
  have hzip : n.namedChildCells = n.payload.childPlaces.filterMap
      (((n.shape.slots.map (·.name)).zip n.cells)[·]?) := by
    rw [namedChildCells, hplaces]
    refine List.filterMap_congr fun i _ => ?_
    rw [List.zip, List.getElem?_zipWith, List.getElem?_map]
    cases n.shape.slots[i]? <;> cases n.cells[i]? <;> rfl
  rw [hzip, Payload.childPlaces, Description.filterMap_attachedPlaces, declaredSlots]
  change (n.shape.slots.zip _).filterMap _ = _
  generalize n.shape.slots = fields
  generalize n.cells = cells
  induction fields generalizing cells with
  | nil => rfl
  | cons field fields ih =>
    cases cells with
    | nil => simp
    | cons c cells =>
      have hrest := ih cells
      by_cases hl : field.linkage = .attached
      · simpa [hl] using hrest
      · simpa [hl] using hrest

/-- A loop that is tested at the bottom runs its body before its condition. -/
theorem namedChildCells_bottom {n : Node} (hshape : n.shape = .whileLoop)
    (htop : ¬n.payload.flag "condition_is_top") (h : n.cells.length = n.shape.slots.length) :
    ∃ condition body ignored,
      n.declaredSlots = [("condition", condition), ("body", body), ("ignored_condition", ignored)] ∧
        n.namedChildCells = [("body", body), ("condition", condition), ("ignored_condition", ignored)] := by
  rw [hshape] at h
  obtain ⟨condition, body, ignored, hcells⟩ := List.length_eq_three.mp h
  have horder : n.payload.evaluationOrder = [1, 0, 2] := if_pos ⟨hshape, htop⟩
  refine ⟨condition, body, ignored, ?_, ?_⟩
  · rw [declaredSlots, hshape, hcells]
    rfl
  · rw [namedChildCells, horder, hshape, hcells]
    rfl

/-- No child slot is left out, and none comes twice. -/
theorem namedChildCells_perm {n : Node} (h : n.cells.length = n.shape.slots.length) :
    (n.namedChildCells.map (·.1)).Perm n.shape.slotNames := by
  by_cases hbottom : n.shape = .whileLoop ∧ ¬n.payload.flag "condition_is_top"
  · obtain ⟨_, _, _, hdeclared, hslots⟩ := namedChildCells_bottom hbottom.1 hbottom.2 h
    rw [← slotNames_declaredSlots h, hdeclared, hslots]
    exact List.Perm.swap _ _ _
  · rw [namedChildCells_eq hbottom, slotNames_declaredSlots h]

theorem length_namedChildCells {n : Node} (h : n.cells.length = n.shape.slots.length) :
    n.namedChildCells.length = n.shape.slotNames.length :=
  (List.length_map _).symm.trans (namedChildCells_perm h).length_eq

end Node
end BoundTree
