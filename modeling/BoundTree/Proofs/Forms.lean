import BoundTree.Wire

/-!
The forms of interchange values, apart from any type: which values spell which written form, and which have a
fault in them, however deep. Main statement: what has a fault spells nothing.
-/
namespace BoundTree

/-- What a value of some type looks like when it is written. -/
inductive Form
  | truth
  /-- The integers of a range. -/
  | whole (low high : Int)
  /-- The doubles. -/
  | number
  /-- The texts of one character. -/
  | character
  | text
  /-- Null or a value. -/
  | optional (inner : Form)
  /-- A value for each of these names. -/
  | record (fields : List (String × Form))
  /-- One of these names, with a value where the name has a form. -/
  | oneOf (cases : List (String × Option Form))

theorem Json.lookup_of_mem {members : List (String × Json)} (hnodup : (members.map (·.1)).Nodup)
    {m : String × Json} (hm : m ∈ members) : lookup members m.1 = some m.2 := by
  induction members with
  | nil => cases hm
  | cons k members ih =>
    obtain ⟨hfresh, hnodup⟩ := List.nodup_cons.mp hnodup
    rcases List.mem_cons.mp hm with rfl | hm
    · simp [lookup]
    · have hne : k.1 ≠ m.1 := fun heq => hfresh (List.mem_map.mpr ⟨m, hm, heq.symm⟩)
      have hrest := ih hnodup hm
      rwa [lookup, List.find?_cons_of_neg (by simpa using hne)]

namespace Form

/-- How a double is written. -/
def numeral (x : Binary64) : Json := if x.isNaN || x.isInfinite then .null else .float x

def isOptional : Form → Bool
  | .optional _ => true
  | _ => false

mutual

/-- The first value is a spelling of the second, which is the written form. -/
inductive Spells : Form → Json → Json → Prop
  | truth (b : Bool) : Spells .truth (.bool b) (.bool b)
  | whole {low high n : Int} (hlow : low ≤ n) (hhigh : n ≤ high) : Spells (.whole low high) (.int n) (.int n)
  | number (x : Binary64) : Spells .number (.float x) (numeral x)
  | integral (n : Int) : Spells .number (.int n) (numeral (Binary64.ofInt n))
  | character (c : Char) : Spells .character (.str (String.ofList [c])) (.str (String.ofList [c]))
  | text (s : String) : Spells .text (.str s) (.str s)
  | absent {f : Form} : Spells (.optional f) .null .null
  | present {f : Form} {j c : Json} (hj : j.isNull = false) (h : Spells f j c) : Spells (.optional f) j c
  | members {fields : List (String × Form)} {members written : List (String × Json)}
      (h : SpellsMembers fields members written) : Spells (.record fields) (.obj members) (.obj written)
  | items {fields : List (String × Form)} {items : List Json} {written : List (String × Json)}
      (h : SpellsItems fields items written) : Spells (.record fields) (.arr items) (.obj written)
  | named {cases : List (String × Option Form)} {name : String} (h : cases.lookup name = some none) :
      Spells (.oneOf cases) (.str name) (.str name)
  | unit {cases : List (String × Option Form)} {name : String} (h : cases.lookup name = some none) :
      Spells (.oneOf cases) (.obj [(name, .null)]) (.str name)
  | carrying {cases : List (String × Option Form)} {name : String} {f : Form} {j c : Json}
      (hname : cases.lookup name = some (some f)) (h : Spells f j c) :
      Spells (.oneOf cases) (.obj [(name, j)]) (.obj [(name, c)])

/-- An object may have other members, and those that are optional may be missing. -/
inductive SpellsMembers : List (String × Form) → List (String × Json) → List (String × Json) → Prop
  | nil {members : List (String × Json)} : SpellsMembers [] members []
  | held {name : String} {f : Form} {fields : List (String × Form)} {members written : List (String × Json)}
      {j c : Json} (hj : Json.lookup members name = some j) (h : Spells f j c)
      (hrest : SpellsMembers fields members written) :
      SpellsMembers ((name, f) :: fields) members ((name, c) :: written)
  | omitted {name : String} {f : Form} {fields : List (String × Form)} {members written : List (String × Json)}
      (hj : Json.lookup members name = none) (hrest : SpellsMembers fields members written) :
      SpellsMembers ((name, .optional f) :: fields) members ((name, .null) :: written)

/-- An array has one item for each field and no other. -/
inductive SpellsItems : List (String × Form) → List Json → List (String × Json) → Prop
  | nil : SpellsItems [] [] []
  | cons {name : String} {f : Form} {fields : List (String × Form)} {items : List Json}
      {written : List (String × Json)} {j c : Json} (h : Spells f j c)
      (hrest : SpellsItems fields items written) :
      SpellsItems ((name, f) :: fields) (j :: items) ((name, c) :: written)

end

/-- There is a number where an integer of a range belongs, and it is none, or a required field is missing, or
a name is not known, here or in a part. -/
inductive Faulty : Form → Json → Prop
  | outOfRange {low high n : Int} (h : n < low ∨ high < n) : Faulty (.whole low high) (.int n)
  | fractional {low high : Int} (x : Binary64) : Faulty (.whole low high) (.float x)
  | missing {fields : List (String × Form)} {members : List (String × Json)} {name : String} {f : Form}
      (hfield : (name, f) ∈ fields) (hrequired : f.isOptional = false)
      (h : Json.lookup members name = none) : Faulty (.record fields) (.obj members)
  | short {fields : List (String × Form)} {items : List Json} (h : items.length < fields.length) :
      Faulty (.record fields) (.arr items)
  | unknown {cases : List (String × Option Form)} {name : String} (h : cases.lookup name = none) :
      Faulty (.oneOf cases) (.str name)
  | unknownCarrying {cases : List (String × Option Form)} {name : String} {j : Json}
      (h : cases.lookup name = none) : Faulty (.oneOf cases) (.obj [(name, j)])
  | present {f : Form} {j : Json} (h : Faulty f j) : Faulty (.optional f) j
  | member {fields : List (String × Form)} {members : List (String × Json)} {name : String} {f : Form}
      {j : Json} (hfield : (name, f) ∈ fields) (hj : Json.lookup members name = some j) (h : Faulty f j) :
      Faulty (.record fields) (.obj members)
  | item {fields : List (String × Form)} {items : List Json} {i : Nat} {name : String} {f : Form} {j : Json}
      (hfield : fields[i]? = some (name, f)) (hj : items[i]? = some j) (h : Faulty f j) :
      Faulty (.record fields) (.arr items)
  | carried {cases : List (String × Option Form)} {name : String} {f : Form} {j : Json}
      (hname : cases.lookup name = some (some f)) (h : Faulty f j) : Faulty (.oneOf cases) (.obj [(name, j)])

theorem Faulty.ne_null {f : Form} {j : Json} (h : f.Faulty j) : j ≠ .null := by
  induction h with
  | present h ih => exact ih
  | _ => exact Json.noConfusion

theorem Spells.ne_null {f : Form} {j c : Json} (h : f.Spells j c) (hrequired : f.isOptional = false) :
    j ≠ .null := by
  rintro rfl
  cases h with
  | absent => cases hrequired
  | present => cases hrequired

/-! What is spelled field by field. -/

theorem SpellsMembers.of_mem {fields : List (String × Form)} {members written : List (String × Json)}
    (h : SpellsMembers fields members written) {name : String} {f : Form} (hfield : (name, f) ∈ fields) :
    (∃ j c, Json.lookup members name = some j ∧ f.Spells j c) ∨
      Json.lookup members name = none ∧ f.isOptional = true := by
  induction fields generalizing written with
  | nil => cases hfield
  | cons field fields ih =>
    cases h with
    | held hj hc hrest =>
      rcases List.mem_cons.mp hfield with heq | hmem
      · cases heq
        exact .inl ⟨_, _, hj, hc⟩
      · exact ih hrest hmem
    | omitted hj hrest =>
      rcases List.mem_cons.mp hfield with heq | hmem
      · cases heq
        exact .inr ⟨hj, rfl⟩
      · exact ih hrest hmem

theorem SpellsItems.getElem? {fields : List (String × Form)} {items : List Json}
    {written : List (String × Json)} (h : SpellsItems fields items written) {i : Nat} {name : String}
    {f : Form} (hfield : fields[i]? = some (name, f)) : ∃ j c, items[i]? = some j ∧ f.Spells j c := by
  induction fields generalizing items written i with
  | nil => cases hfield
  | cons field fields ih =>
    cases h with
    | cons hc hrest =>
      cases i with
      | zero =>
        cases hfield
        exact ⟨_, _, rfl, hc⟩
      | succ i => exact ih hrest hfield

theorem SpellsItems.length_eq {fields : List (String × Form)} {items : List Json}
    {written : List (String × Json)} (h : SpellsItems fields items written) :
    items.length = fields.length := by
  induction fields generalizing items written with
  | nil =>
    cases h
    rfl
  | cons field fields ih =>
    cases h with
    | cons hc hrest => rw [List.length_cons, List.length_cons, ih hrest]

theorem SpellsItems.names_eq {fields : List (String × Form)} {items : List Json}
    {written : List (String × Json)} (h : SpellsItems fields items written) :
    written.map (·.1) = fields.map (·.1) := by
  induction fields generalizing items written with
  | nil =>
    cases h
    rfl
  | cons field fields ih =>
    cases h with
    | cons hc hrest => rw [List.map_cons, List.map_cons, ih hrest]

/-- What has a fault spells nothing. -/
theorem Faulty.not_spells {f : Form} {j : Json} (h : f.Faulty j) (c : Json) : ¬f.Spells j c := by
  intro hc
  induction h generalizing c with
  | outOfRange h =>
    cases hc with
    | whole hlow hhigh => exact h.elim (Int.not_lt.mpr hlow) (Int.not_lt.mpr hhigh)
  | fractional => cases hc
  | missing hfield hrequired h =>
    cases hc with
    | members hc =>
      rcases hc.of_mem hfield with ⟨_, _, hj, -⟩ | ⟨-, hoptional⟩
      · rw [h] at hj
        cases hj
      · rw [hrequired] at hoptional
        cases hoptional
  | short h =>
    cases hc with
    | items hc => exact Nat.ne_of_lt h hc.length_eq
  | unknown h =>
    cases hc with
    | named hname =>
      rw [h] at hname
      cases hname
  | unknownCarrying h =>
    cases hc with
    | unit hname =>
      rw [h] at hname
      cases hname
    | carrying hname hc =>
      rw [h] at hname
      cases hname
  | present h ih =>
    cases hc with
    | absent => exact h.ne_null rfl
    | present hj hc => exact ih _ hc
  | member hfield hj h ih =>
    cases hc with
    | members hc =>
      rcases hc.of_mem hfield with ⟨_, _, hj', hc⟩ | ⟨hnone, -⟩
      · rw [hj] at hj'
        cases hj'
        exact ih _ hc
      · rw [hj] at hnone
        cases hnone
  | item hfield hj h ih =>
    cases hc with
    | items hc =>
      obtain ⟨_, _, hj', hc⟩ := hc.getElem? hfield
      rw [hj] at hj'
      cases hj'
      exact ih _ hc
  | carried hname h ih =>
    cases hc with
    | unit hname' =>
      rw [hname] at hname'
      cases hname'
    | carrying hname' hc =>
      rw [hname] at hname'
      cases hname'
      exact ih _ hc

/-! Spellings by what is written. -/

theorem spells_whole {low high n : Int} {j : Json} :
    (Form.whole low high).Spells j (.int n) ↔ j = .int n ∧ low ≤ n ∧ n ≤ high := by
  constructor
  · intro h
    cases h with
    | whole hlow hhigh => exact ⟨rfl, hlow, hhigh⟩
  · rintro ⟨rfl, hlow, hhigh⟩
    exact .whole hlow hhigh

theorem spells_number {j c : Json} :
    Form.number.Spells j c ↔ ∃ x, (j = .float x ∨ ∃ n, j = .int n ∧ x = Binary64.ofInt n) ∧ c = numeral x := by
  constructor
  · intro h
    cases h with
    | number x => exact ⟨x, .inl rfl, rfl⟩
    | integral n => exact ⟨_, .inr ⟨n, rfl, rfl⟩, rfl⟩
  · rintro ⟨_, rfl | ⟨n, rfl, rfl⟩, rfl⟩
    · exact .number _
    · exact .integral n

theorem spells_character {j c : Json} :
    Form.character.Spells j c ↔ ∃ ch, j = .str (String.ofList [ch]) ∧ c = .str (String.ofList [ch]) := by
  constructor
  · intro h
    cases h with
    | character ch => exact ⟨ch, rfl, rfl⟩
  · rintro ⟨ch, rfl, rfl⟩
    exact .character ch

theorem spells_optional {f : Form} {j c : Json} : (Form.optional f).Spells j c ↔
    j = .null ∧ c = .null ∨ j.isNull = false ∧ f.Spells j c := by
  constructor
  · intro h
    cases h with
    | absent => exact .inl ⟨rfl, rfl⟩
    | present hj h => exact .inr ⟨hj, h⟩
  · rintro (⟨rfl, rfl⟩ | ⟨hj, h⟩)
    · exact .absent
    · exact .present hj h

theorem spells_oneOf_str {cases : List (String × Option Form)} {j : Json} {name : String} :
    (Form.oneOf cases).Spells j (.str name) ↔
      cases.lookup name = some none ∧ (j = .str name ∨ j = .obj [(name, .null)]) := by
  constructor
  · intro h
    cases h with
    | named h => exact ⟨h, .inl rfl⟩
    | unit h => exact ⟨h, .inr rfl⟩
  · rintro ⟨h, rfl | rfl⟩
    · exact .named h
    · exact .unit h

theorem spells_oneOf_obj {cases : List (String × Option Form)} {j c : Json} {name : String} :
    (Form.oneOf cases).Spells j (.obj [(name, c)]) ↔
      ∃ f v, cases.lookup name = some (some f) ∧ j = .obj [(name, v)] ∧ f.Spells v c := by
  constructor
  · intro h
    cases h with
    | carrying hname h => exact ⟨_, _, hname, rfl, h⟩
  · rintro ⟨f, v, hname, rfl, h⟩
    exact .carrying hname h

theorem spellsItems_cons {name : String} {f : Form} {fields : List (String × Form)} {items : List Json}
    {c : Json} {written : List (String × Json)} :
    SpellsItems ((name, f) :: fields) items ((name, c) :: written) ↔
      ∃ j rest, items = j :: rest ∧ f.Spells j c ∧ SpellsItems fields rest written := by
  constructor
  · intro h
    cases h with
    | cons h hrest => exact ⟨_, _, rfl, h, hrest⟩
  · rintro ⟨j, rest, rfl, h, hrest⟩
    exact .cons h hrest

theorem spellsItems_nil {items : List Json} : SpellsItems [] items [] ↔ items = [] := by
  constructor
  · intro h
    cases h
    rfl
  · rintro rfl
    exact .nil

/-! A record is read as the list of what its fields hold, with null for what is missing. -/

theorem spellsItems_of_spellsMembers {fields : List (String × Form)} {members written : List (String × Json)}
    (h : SpellsMembers fields members written) :
    SpellsItems fields (fields.map fun field => (Json.lookup members field.1).getD .null) written := by
  induction fields generalizing written with
  | nil =>
    cases h
    exact .nil
  | cons field fields ih =>
    cases h with
    | held hj hc hrest =>
      rw [List.map_cons, hj]
      exact .cons hc (ih hrest)
    | omitted hj hrest =>
      rw [List.map_cons, hj]
      exact .cons .absent (ih hrest)

theorem spellsMembers_of_spellsItems {fields : List (String × Form)} {members written : List (String × Json)}
    (h : SpellsItems fields (fields.map fun field => (Json.lookup members field.1).getD .null) written) :
    SpellsMembers fields members written := by
  induction fields generalizing written with
  | nil =>
    cases h
    exact .nil
  | cons field fields ih =>
    rw [List.map_cons] at h
    cases h with
    | cons hc hrest =>
      rename_i name f c written
      cases hj : Json.lookup members name with
      | some j =>
        rw [hj] at hc
        exact .held hj hc (ih hrest)
      | none =>
        rw [hj] at hc
        -- null is a spelling in optional fields only
        cases hc with
        | absent => exact .omitted hj (ih hrest)
        | present hnull => cases hnull

theorem spells_record {fields : List (String × Form)} {j : Json} {written : List (String × Json)} :
    (Form.record fields).Spells j (.obj written) ↔
      ∃ items, Wire.record? (fields.map (·.1)) j = some items ∧ SpellsItems fields items written := by
  constructor
  · intro h
    cases h with
    | members h =>
      refine ⟨_, rfl, ?_⟩
      rw [List.map_map]
      exact spellsItems_of_spellsMembers h
    | items h =>
      refine ⟨_, ?_, h⟩
      rw [Wire.record?, List.length_map, if_pos h.length_eq]
  · rintro ⟨items, hitems, h⟩
    cases j with
    | obj members =>
      rw [Wire.record?, List.map_map, Option.some_inj] at hitems
      subst hitems
      exact .members (spellsMembers_of_spellsItems h)
    | arr items' =>
      rw [Wire.record?] at hitems
      split at hitems
      · cases hitems
        exact .items h
      · cases hitems
    | null | bool | int | float | str => cases hitems

/-- What is written of a record is a spelling if each part is. -/
theorem SpellsItems.record_self {fields : List (String × Form)} (hnodup : (fields.map (·.1)).Nodup)
    {written : List (String × Json)} (h : SpellsItems fields (written.map (·.2)) written) :
    (Form.record fields).Spells (.obj written) (.obj written) := by
  have hnames : written.map (·.1) = fields.map (·.1) := h.names_eq
  have hvalues : written.map (·.2) =
      fields.map fun field => (Json.lookup written field.1).getD .null :=
    calc written.map (·.2)
        = (written.map (·.1)).map fun name => (Json.lookup written name).getD .null := by
          rw [List.map_map]
          refine List.map_congr_left fun m hm => ?_
          rw [Function.comp_apply, Json.lookup_of_mem (hnames ▸ hnodup) hm, Option.getD_some]
      _ = fields.map fun field => (Json.lookup written field.1).getD .null := by
          rw [hnames, List.map_map]
          rfl
  rw [hvalues] at h
  exact .members (spellsMembers_of_spellsItems h)

end Form
end BoundTree
