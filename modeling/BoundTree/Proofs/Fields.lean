import BoundTree.Proofs.Tabulation

/-!
What becomes of the fields of a struct, and of what is said of them. Main statement: a field is installed, or
described, or called after the kind of an operation and left out; and what is said of a slot is heeded or
refused, while what is said of another field as a slot makes no difference.
-/
namespace BoundTree.Derive

namespace NamedField

/-- The call that describes an attribute. -/
def description (f : NamedField) : Words := "visit" :: parens (f.label :: "," :: "&" :: f.access) ++ [";"]

/-- A field without what is said of it as a slot, unless it is one. -/
def unsaid (f : NamedField) : NamedField :=
  if f.type.SlotTyped then f
  else { f with annotations := f.annotations.filter fun a => !a.name.isWord "slot" }

end NamedField

/-- The code installs the slots and describes the plain fields, and there are no others but those that are
called after the kind. -/
structure Emits (fields : List NamedField) (b : Block) : Prop where
  installed : b.body? "for_each_slot" = some (.code (
    if slotFields fields = [] then words "let _ = visit ;"
    else (slotFields fields).flatMap NamedField.installation))
  described : b.body? "describe" = some (.code (
    if plainFields fields = [] then words "let _ = visit ;"
    else (plainFields fields).flatMap NamedField.description))
  rest : (slotFields fields ++ plainFields fields ++ kindFields fields).Perm fields

theorem perm_fields (fields : List NamedField) :
    (slotFields fields ++ plainFields fields ++ kindFields fields).Perm fields := by
  let others := fields.filter fun f => !decide f.type.SlotTyped
  have hothers : (plainFields fields ++ kindFields fields).Perm others := by
    have hsplit := List.filter_append_perm (fun f : NamedField => decide (f.name.text ≠ "kind")) others
    have hplain : others.filter (fun f => decide (f.name.text ≠ "kind")) = plainFields fields := by
      simp [others, plainFields, List.filter_filter, and_comm]
    have hkind : others.filter (fun f => !decide (f.name.text ≠ "kind")) = kindFields fields := by
      simp [others, kindFields, List.filter_filter, and_comm]
    rwa [hplain, hkind] at hsplit
  rw [List.append_assoc]
  exact (hothers.append_left _).trans (List.filter_append_perm _ fields)

theorem emits {item : Item} {fields : List NamedField} (h : item.IsShape fields) :
    Emits fields (item.slotTable fields).block where
  installed := (tabulates h).forEachSlot
  described := by
    have hbody : (item.slotTable fields).block.body? "describe" = some (.code
        (if ((plainFields fields).map (·.name)).isEmpty then words "let _ = visit ;"
          else ((plainFields fields).map (·.name)).flatMap SlotTable.describeCall)) := rfl
    have hcalls : ((plainFields fields).map (·.name)).flatMap SlotTable.describeCall =
        (plainFields fields).flatMap NamedField.description := by
      rw [List.flatMap_map]
      rfl
    rw [hbody, hcalls]
    by_cases hempty : plainFields fields = [] <;> simp [hempty]
  rest := perm_fields fields

/-! What is said of slots. -/

namespace NamedField

/-- What is said of the field has the form that it should have, whatever words it uses. -/
structure WellSaid (f : NamedField) : Prop where
  parenthesized : Parenthesized .slot f.annotations
  bare : ∀ s ∈ given .slot f.annotations, s.path.isWord "detached" = true → ∃ p, s = .flag p

theorem linkage_eq_error {f : NamedField} (h : f.WellSaid) {e : DeriveError} (he : f.linkage = .error e) :
    e = .unsupported .slot := by
  rw [linkage, readSettings_eq h.parenthesized] at he
  refine of_foldlM_eq_error (p := (· = .unsupported .slot)) (fun s hs l e' he' => ?_) he
  rw [applySlot] at he'
  split at he'
  · next hword =>
    obtain ⟨p, rfl⟩ := h.bare s hs hword
    cases he'
  · exact (Except.error.inj he').symm

end NamedField

theorem FieldRoles.read_eq_error {fields : List NamedField} (h : ∀ f ∈ slotFields fields, f.WellSaid)
    {e : DeriveError} (he : FieldRoles.read fields = .error e) : e = .unsupported .slot := by
  refine of_foldlM_eq_error (p := (· = .unsupported .slot)) (fun f hf r e' he' => ?_) he
  rw [add] at he'
  split at he'
  · next hslot =>
    have hwell : f.WellSaid :=
      h f (List.mem_filter.mpr ⟨hf, decide_eq_true (TypeExpr.isSlot_iff.mp hslot)⟩)
    cases hl : f.linkage with
    | error e'' =>
      rw [hl] at he'
      cases he'
      exact NamedField.linkage_eq_error hwell hl
    | ok l =>
      rw [hl] at he'
      cases he'
  · split at he' <;> cases he'

/-- What is said of a field that is no slot is not read. -/
theorem FieldRoles.read_unsaid (fields : List NamedField) :
    FieldRoles.read (fields.map NamedField.unsaid) = FieldRoles.read fields := by
  have hadd : ∀ (r : FieldRoles) (f : NamedField), r.add f.unsaid = r.add f := by
    intro r f
    by_cases hslot : f.type.SlotTyped
    · rw [NamedField.unsaid, if_pos hslot]
    · have hplain : f.type.isSlot = false := Bool.eq_false_iff.mpr fun h => hslot (TypeExpr.isSlot_iff.mp h)
      simp [NamedField.unsaid, hslot, add, hplain]
  rw [read, read, List.foldlM_map]
  simp only [hadd]

/-- Of the fields of a struct, every one is installed or described once, but for those that are no slots and
called `kind`, which are left out whether the shape serves several kinds or not. Of what is said of a slot,
each word is heeded where code is made, and where all is well-formed an unknown word is refused; but what is
said of other fields is not looked at. -/
theorem shapeCode_fields (name : Ident) (generics : List Parameter) (annotations : List Annotation)
    (fields : List NamedField) :
    let item (fields : List NamedField) : Item := ⟨name, generics, annotations, .struct (.named fields)⟩
    (∀ code, shapeCode? (item fields) = .ok code →
      (∃ b, code = render [b] ∧ Emits fields b) ∧
        ∀ f ∈ slotFields fields, ∀ s ∈ given .slot f.annotations,
          s.path.isWord "detached" = true ∧ f.IsDetached) ∧
      ((item fields).SaysShape → (∀ f ∈ slotFields fields, f.WellSaid) →
        (∃ f ∈ slotFields fields, ∃ s ∈ given .slot f.annotations, s.path.isWord "detached" = false) →
          shapeCode? (item fields) = .error (.refused (.unsupported .slot))) ∧
      shapeCode? (item (fields.map NamedField.unsaid)) = shapeCode? (item fields) := by
  intro item
  refine ⟨fun code hcode => ?_, fun hheard hwell hunknown => ?_, ?_⟩
  · obtain ⟨fields', h, rfl⟩ := shapeCode?_eq_ok.mp hcode
    obtain rfl : fields' = fields := by simpa [item] using h.form.symm
    refine ⟨⟨_, rfl, emits h⟩, fun f hf s hs => ?_⟩
    obtain ⟨hmem, hslot⟩ := List.mem_filter.mp hf
    obtain ⟨p, rfl, hp⟩ := (h.slots f hmem (of_decide_eq_true hslot)).settings s hs
    exact ⟨hp, _, hs, hp⟩
  · cases hroles : FieldRoles.read fields with
    | ok r =>
      obtain ⟨f, hf, s, hs, hword⟩ := hunknown
      obtain ⟨hmem, hslot⟩ := List.mem_filter.mp hf
      obtain ⟨p, rfl, hp⟩ :=
        ((FieldRoles.read_eq_ok.mp hroles).1 f hmem (of_decide_eq_true hslot)).settings s hs
      exact absurd (hword.symm.trans hp) (by simp)
    | error e =>
      obtain rfl := FieldRoles.read_eq_error hwell hroles
      have hread : ShapeSettings.read (item fields).annotations = .ok (item fields).shapeSettings :=
        ShapeSettings.read_eq_ok.mpr ⟨hheard, rfl⟩
      simp only [shapeCode?, SlotTable.ofItem?, hread, hroles, item, bind, Except.bind]
  · simp only [shapeCode?, SlotTable.ofItem?, item, FieldRoles.read_unsaid]

/-- A field that is no slot, although it is annotated like one, and is called `kind`. -/
def idleField : NamedField where
  name := ⟨"kind"⟩
  type := .path false [⟨"X"⟩] none
  annotations := [⟨.word "slot", some [.flag (.word "bogus")]⟩]

/-- A struct with this field alone, which serves one kind. -/
def idleStruct : Item where
  name := ⟨"A"⟩
  generics := []
  annotations := [⟨.word "shape", some [.value (.word "kind") (.word "A")]⟩]
  form := .struct (.named [idleField])

/-- Code is made of it, which does nothing with the field and says nothing of its annotation. -/
theorem shapeCode_not_every_field : ∃ b, shapeCode? idleStruct = .ok (render [b]) ∧
    ¬idleStruct.IsShared ∧ b.body? "for_each_slot" = some (.code (words "let _ = visit ;")) ∧
      b.body? "describe" = some (.code (words "let _ = visit ;")) ∧
      ∃ s ∈ given .slot idleField.annotations, s.path.isWord "detached" = false := by
  have hgiven : given .shape idleStruct.annotations = [.value (.word "kind") (.word "A")] := rfl
  have hheard : idleStruct.SaysShape := by
    refine ⟨by simp [Parenthesized, idleStruct], fun s hs => ?_, by decide, by decide⟩
    rw [hgiven] at hs
    rw [List.mem_singleton.mp hs]
    exact .inl ⟨"kind", by simp, ⟨"A"⟩, by decide, by decide⟩
  have hplain : ¬idleField.type.SlotTyped := by decide
  have hshape : idleStruct.IsShape [idleField] :=
    ⟨hheard, rfl, fun f hf hslot => absurd (List.mem_singleton.mp hf ▸ hslot) hplain, by decide⟩
  have hemits := emits hshape
  exact ⟨_, shapeCode?_eq_ok.mpr ⟨_, hshape, rfl⟩, by decide, hemits.installed, hemits.described,
    by decide⟩

end BoundTree.Derive
