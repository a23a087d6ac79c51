import BoundTree.Derive.SlotTable
import BoundTree.Proofs.Annotations

/-!
The slot table that is made of a struct. Main statement: it is made exactly of the well-formed structs, and the
names of the slots, the cases for their places and the calls that install them are about the same fields in the
same order.
-/
namespace BoundTree.Derive

namespace Setting

/-- What may be said of a shape: its kind, a list of its kinds, and the methods of its own. -/
def SaysShape (s : Setting) : Prop :=
  s.GivesIdent ["kind", "order", "validate"] ∨ ∃ p items, s = .list p items ∧
    p.isWord "kinds" = true ∧ items ≠ [] ∧ ∀ x ∈ items, ∃ q, x = .flag q ∧ q.ident?.isSome

/-- The kinds that a setting names. -/
def kinds : Setting → List Ident
  | .list p items => if p.isWord "kinds" then items.filterMap (·.path.ident?) else []
  | s => (s.identFor? "kind").toList

end Setting

namespace ShapeSettings

theorem kindNames_eq_ok {items : List Setting} {is : List Ident} : kindNames items = .ok is ↔
    (∀ x ∈ items, ∃ q, x = .flag q ∧ q.ident?.isSome) ∧ is = items.filterMap (·.path.ident?) := by
  induction items generalizing is with
  | nil =>
    rw [kindNames, Except.ok.injEq]
    exact ⟨fun h => ⟨fun _ hx => absurd hx List.not_mem_nil, h.symm⟩, fun h => h.2.symm⟩
  | cons s rest ih =>
    rw [kindNames, List.forall_mem_cons]
    cases hi : s.path.ident? with
    | none =>
      refine ⟨fun h => (nomatch h), ?_⟩
      rintro ⟨⟨⟨q, rfl, hq⟩, -⟩, -⟩
      simp [show q.ident? = none from hi] at hq
    | some i =>
      simp only [bind_eq_ok, Setting.bare_eq_ok, ih, List.filterMap_cons, hi, pure, Except.pure,
        Except.ok.injEq]
      constructor
      · rintro ⟨_, ⟨q, rfl⟩, names, ⟨hall, rfl⟩, rfl⟩
        exact ⟨⟨⟨q, rfl, Option.isSome_of_mem hi⟩, hall⟩, rfl⟩
      · rintro ⟨⟨⟨q, rfl, -⟩, hall⟩, rfl⟩
        exact ⟨(), ⟨q, rfl⟩, _, ⟨hall, rfl⟩, rfl⟩

theorem kindList_eq_ok {s : Setting} {is : List Ident} : kindList s = .ok is ↔
    ∃ p items, s = .list p items ∧ items ≠ [] ∧ (∀ x ∈ items, ∃ q, x = .flag q ∧ q.ident?.isSome) ∧
      is = items.filterMap (·.path.ident?) := by
  rcases s with p | ⟨p, v⟩ | ⟨p, _ | ⟨x, items⟩⟩
  · simp [kindList]
  · simp [kindList]
  · simp [kindList]
  · rw [kindList, kindNames_eq_ok]
    · simp
    · simp

/-- What a setting adds to what was said before. -/
def hear (o : ShapeSettings) (s : Setting) : ShapeSettings where
  kinds := o.kinds ++ s.kinds
  isShared := o.isShared || s.path.isWord "kinds"
  order := (s.identFor? "order").or o.order
  validation := (s.identFor? "validate").or o.validation

/-- A setting of another word than that for lists of kinds. -/
theorem saysShape_iff {s : Setting} {word : String} (h : s.path.isWord word = true)
    (hne : word ≠ "kinds") :
    s.SaysShape ↔ word ∈ ["kind", "order", "validate"] ∧ ∃ i, s.identValue = .ok i := by
  rw [Setting.SaysShape, Setting.givesIdent_iff h, or_iff_left_iff_imp]
  rintro ⟨p, items, rfl, hp, -⟩
  exact absurd (hp.symm.trans (Path.isWord_of_ne h hne.symm)) (by simp)

theorem saysShape_kinds {s : Setting} (h : s.path.isWord "kinds" = true) :
    s.SaysShape ↔ ∃ is, kindList s = .ok is := by
  rw [Setting.SaysShape, Setting.givesIdent_iff h]
  simp only [kindList_eq_ok]
  constructor
  · rintro (⟨hword, -⟩ | ⟨p, items, rfl, -, hne, hnames⟩)
    · simp at hword
    · exact ⟨_, p, items, rfl, hne, hnames, rfl⟩
  · rintro ⟨_, p, items, rfl, hne, hnames, rfl⟩
    exact .inr ⟨p, items, rfl, h, hne, hnames⟩

theorem kinds_eq {s : Setting} {word : String} (h : s.path.isWord word = true) (hne : word ≠ "kinds") :
    s.kinds = (s.identFor? "kind").toList := by
  cases s with
  | list p items =>
    have hp : p.isWord "kinds" = false := Path.isWord_of_ne h hne.symm
    simp [Setting.kinds, Setting.identFor?, hp]
  | _ => rfl

/-- What is said is heard, and nothing else can be read. -/
theorem apply_eq_ok (o : ShapeSettings) (s : Setting) (o' : ShapeSettings) :
    apply o s = .ok o' ↔ s.SaysShape ∧ o' = o.hear s := by
  have hother : ∀ {word}, s.path.isWord word = true → ∀ {w}, w ≠ word →
      s.path.isWord w = false ∧ s.identFor? w = none := fun h _ hne =>
    ⟨Path.isWord_of_ne h hne, Setting.identFor?_of_ne (Path.isWord_of_ne h hne)⟩
  have hident : ∀ {word}, s.path.isWord word = true → word ∈ ["kind", "order", "validate"] →
      ∀ f : Ident → ShapeSettings, (∀ i, s.identFor? word = some i → f i = o.hear s) →
        ((s.identValue >>= fun i => pure (f i)) = .ok o' ↔ s.SaysShape ∧ o' = o.hear s) := by
    intro word h hword f hf
    have hne : word ≠ "kinds" := by rintro rfl; simp at hword
    rw [saysShape_iff h hne, and_iff_right hword]
    exact bind_pure_eq_ok fun i hi => hf i ((Setting.identValue_eq_ok_of h).mp hi).1
  unfold apply
  by_cases hkind : s.path.isWord "kind"
  · rw [if_pos hkind]
    refine hident hkind (by simp) _ fun i hi => ?_
    simp [hear, kinds_eq hkind, hi, hother hkind]
  rw [if_neg hkind]
  by_cases hkinds : s.path.isWord "kinds"
  · rw [if_pos hkinds, saysShape_kinds hkinds]
    refine bind_pure_eq_ok fun is h => ?_
    obtain ⟨p, items, rfl, -, -, rfl⟩ := kindList_eq_ok.mp h
    have hp : p.isWord "kinds" = true := hkinds
    simp [hear, Setting.kinds, hp, hkinds, Setting.identFor?]
  rw [if_neg hkinds]
  by_cases horder : s.path.isWord "order"
  · rw [if_pos horder]
    refine hident horder (by simp) _ fun i hi => ?_
    simp [hear, kinds_eq horder, hi, hother horder]
  rw [if_neg horder]
  by_cases hvalidate : s.path.isWord "validate"
  · rw [if_pos hvalidate]
    refine hident hvalidate (by simp) _ fun i hi => ?_
    simp [hear, kinds_eq hvalidate, hi, hother hvalidate]
  rw [if_neg hvalidate]
  constructor
  · intro h
    cases h
  · rintro ⟨⟨word, hword, i, hi, -⟩ | ⟨p, items, rfl, hp, -⟩, -⟩
    · have h := Setting.isWord_of_identFor? hi
      simp only [List.mem_cons, List.not_mem_nil, or_false] at hword
      rcases hword with rfl | rfl | rfl <;> contradiction
    · exact absurd hp hkinds

/-- What settings say together: kinds add up, and of the methods the last one counts. -/
theorem foldl_hear (l : List Setting) (o : ShapeSettings) : l.foldl hear o =
    { kinds := o.kinds ++ l.flatMap Setting.kinds
      isShared := o.isShared || l.any (·.path.isWord "kinds")
      order := (lastOf? (·.identFor? "order") l).or o.order
      validation := (lastOf? (·.identFor? "validate") l).or o.validation } := by
  induction l generalizing o with
  | nil => simp
  | cons s l ih =>
    rw [List.foldl_cons, ih]
    simp only [hear, lastOf?_cons, Option.or_assoc, List.flatMap_cons, List.any_cons, List.append_assoc,
      Bool.or_assoc]

end ShapeSettings

namespace Item

/-- The kinds that are named, in order. -/
def kinds (item : Item) : List Ident := (given .shape item.annotations).flatMap Setting.kinds

/-- The kinds are given as a list. -/
def IsShared (item : Item) : Prop :=
  ∃ s ∈ given .shape item.annotations, s.path.isWord "kinds" = true

instance (item : Item) : Decidable item.IsShared :=
  inferInstanceAs (Decidable (∃ s ∈ given .shape item.annotations, s.path.isWord "kinds" = true))

/-- The annotations say what a shape needs. -/
structure SaysShape (item : Item) : Prop where
  parenthesized : Parenthesized .shape item.annotations
  settings : ∀ s ∈ given .shape item.annotations, s.SaysShape
  named : item.kinds ≠ []
  several : 1 < item.kinds.length → item.IsShared

def shapeSettings (item : Item) : ShapeSettings :=
  ⟨item.kinds, item.IsShared, item.said? .shape "order", item.said? .shape "validate"⟩

end Item

theorem ShapeSettings.read_eq_ok {item : Item} {o : ShapeSettings} :
    ShapeSettings.read item.annotations = .ok o ↔ item.SaysShape ∧ o = item.shapeSettings := by
  have hshared : (given .shape item.annotations).any (·.path.isWord "kinds") = decide item.IsShared := by
    rw [Bool.eq_iff_iff, List.any_eq_true, decide_eq_true_iff, Item.IsShared]
  have hfold : (given .shape item.annotations).foldl hear {} = item.shapeSettings := by
    rw [foldl_hear, hshared]
    simp [Item.shapeSettings, Item.kinds, Item.said?]
  simp only [ShapeSettings.read, bind_eq_ok, readSettings_eq_ok apply_eq_ok, hfold]
  constructor
  · rintro ⟨_, ⟨⟨hparens, hsettings⟩, rfl⟩, h⟩
    split at h
    · cases h
    · next hnamed =>
      split at h
      · cases h
      · next hseveral =>
        cases h
        refine ⟨⟨hparens, hsettings, fun hnil => hnamed (by simp [Item.shapeSettings, hnil]), fun hlt => ?_⟩,
          rfl⟩
        by_contra hone
        exact hseveral (by simp [Item.shapeSettings, hone, hlt])
  · rintro ⟨h, rfl⟩
    refine ⟨_, ⟨⟨h.parenthesized, h.settings⟩, rfl⟩, ?_⟩
    have hnamed : item.shapeSettings.kinds.isEmpty = false := by
      simpa [Item.shapeSettings] using h.named
    have hseveral : ¬((!item.shapeSettings.isShared && decide (1 < item.shapeSettings.kinds.length)) =
        true) := fun hc => by
      simp only [Bool.and_eq_true, Bool.not_eq_true', decide_eq_true_eq] at hc
      simp [Item.shapeSettings, h.several hc.2] at hc
    rw [hnamed, if_neg Bool.false_ne_true, if_neg hseveral]

/-! The fields of a struct. -/

/-- A path whose last segment is the name of a slot type. -/
def TypeExpr.SlotTyped (t : TypeExpr) : Prop :=
  ∃ isGlobal segments i argument, t = .path isGlobal (segments ++ [i]) argument ∧
    i.text ∈ ["Child", "OptionalChild", "ChildList"]

theorem TypeExpr.isSlot_iff {t : TypeExpr} : t.isSlot = true ↔ t.SlotTyped := by
  cases t with
  | path isGlobal segments argument =>
    have hnames : Arity.all.map Arity.typeName = ["Child", "OptionalChild", "ChildList"] := rfl
    simp only [isSlot, SlotTyped, hnames, Option.any_eq_true, decide_eq_true_eq,
      List.getLast?_eq_some_iff, path.injEq]
    constructor
    · rintro ⟨i, ⟨init, rfl⟩, hname⟩
      exact ⟨isGlobal, init, i, argument, ⟨rfl, rfl, rfl⟩, hname⟩
    · rintro ⟨_, init, i, _, ⟨rfl, rfl, rfl⟩, hname⟩
      exact ⟨i, ⟨init, rfl⟩, hname⟩
  | _ => simp [isSlot, SlotTyped]

instance (t : TypeExpr) : Decidable t.SlotTyped := decidable_of_iff _ TypeExpr.isSlot_iff

namespace NamedField

/-- The field says so in some annotation. -/
def IsDetached (f : NamedField) : Prop :=
  ∃ s ∈ given .slot f.annotations, s.path.isWord "detached" = true

instance (f : NamedField) : Decidable f.IsDetached :=
  inferInstanceAs (Decidable (∃ s ∈ given .slot f.annotations, s.path.isWord "detached" = true))

/-- What is said of the field as a slot is that it is detached, if anything. -/
structure SaysSlot (f : NamedField) : Prop where
  parenthesized : Parenthesized .slot f.annotations
  settings : ∀ s ∈ given .slot f.annotations, ∃ p, s = .flag p ∧ p.isWord "detached" = true

def saidLinkage (f : NamedField) : Linkage := if f.IsDetached then .detached else .attached

theorem linkage_eq_ok {f : NamedField} {l : Linkage} :
    f.linkage = .ok l ↔ f.SaysSlot ∧ l = f.saidLinkage := by
  have hsay : ∀ l s l', applySlot l s = .ok l' ↔
      (∃ p, s = .flag p ∧ p.isWord "detached" = true) ∧
        l' = if s.path.isWord "detached" then .detached else l := by
    intro l s l'
    rw [applySlot]
    by_cases hs : s.path.isWord "detached"
    · rw [if_pos hs, if_pos hs, bind_eq_ok]
      constructor
      · rintro ⟨u, hu, h⟩
        obtain ⟨p, rfl⟩ := Setting.bare_eq_ok.mp hu
        exact ⟨⟨p, rfl, hs⟩, (Except.ok.inj h).symm⟩
      · rintro ⟨⟨p, rfl, -⟩, rfl⟩
        exact ⟨(), rfl, rfl⟩
    · rw [if_neg hs]
      refine ⟨fun h => (nomatch h), ?_⟩
      rintro ⟨⟨p, rfl, hp⟩, -⟩
      exact absurd hp hs
  have hfold : ∀ (ss : List Setting) (l : Linkage),
      ss.foldl (fun l s => if s.path.isWord "detached" then .detached else l) l =
        if ∃ s ∈ ss, s.path.isWord "detached" = true then .detached else l := by
    intro ss
    induction ss with
    | nil => simp
    | cons s ss ih =>
      intro l
      rw [List.foldl_cons, ih]
      by_cases hs : s.path.isWord "detached" <;> simp [hs]
  rw [linkage, readSettings_eq_ok hsay, hfold]
  exact and_congr_left fun _ => ⟨fun h => ⟨h.1, h.2⟩, fun h => ⟨h.parenthesized, h.settings⟩⟩

end NamedField

/-- The fields that are slots. -/
def slotFields (fields : List NamedField) : List NamedField := fields.filter (·.type.SlotTyped)

/-- The slots that hold children. -/
def childFields (fields : List NamedField) : List NamedField :=
  (slotFields fields).filter fun f => ¬f.IsDetached

/-- The fields that are described. -/
def plainFields (fields : List NamedField) : List NamedField :=
  fields.filter fun f => ¬f.type.SlotTyped ∧ f.name.text ≠ "kind"

/-- The fields that say the kind of an operation. -/
def kindFields (fields : List NamedField) : List NamedField :=
  fields.filter fun f => ¬f.type.SlotTyped ∧ f.name.text = "kind"

theorem kindFields_ne_nil {fields : List NamedField} :
    kindFields fields ≠ [] ↔ ∃ f ∈ fields, f.name.text = "kind" ∧ ¬f.type.SlotTyped := by
  simp [kindFields, List.filter_eq_nil_iff, and_comm]

namespace FieldRoles

/-- A field adds to what the fields before it come to. -/
def take (r : FieldRoles) (f : NamedField) : FieldRoles :=
  if f.type.SlotTyped then { r with slots := r.slots ++ [(f.name, f.saidLinkage)] }
  else if f.name.text = "kind" then { r with hasKind := true }
  else { r with attributes := r.attributes ++ [f.name] }

theorem add_eq_ok (r : FieldRoles) (f : NamedField) (r' : FieldRoles) :
    r.add f = .ok r' ↔ (f.type.SlotTyped → f.SaysSlot) ∧ r' = r.take f := by
  rw [add, take]
  by_cases hslot : f.type.SlotTyped
  · rw [if_pos (TypeExpr.isSlot_iff.mpr hslot), if_pos hslot, bind_eq_ok]
    simp only [NamedField.linkage_eq_ok, hslot, true_implies]
    constructor
    · rintro ⟨l, ⟨hheard, rfl⟩, h⟩
      exact ⟨hheard, (Except.ok.inj h).symm⟩
    · rintro ⟨hheard, rfl⟩
      exact ⟨_, ⟨hheard, rfl⟩, rfl⟩
  · rw [if_neg fun h => hslot (TypeExpr.isSlot_iff.mp h), if_neg hslot]
    by_cases hkind : f.name.text = "kind" <;>
      simp [hslot, hkind, pure, Except.pure, eq_comm]

theorem foldl_take (fields : List NamedField) (r : FieldRoles) : fields.foldl take r =
    { slots := r.slots ++ (slotFields fields).map fun f => (f.name, f.saidLinkage)
      attributes := r.attributes ++ (plainFields fields).map (·.name)
      hasKind := r.hasKind || !(kindFields fields).isEmpty } := by
  induction fields generalizing r with
  | nil => simp [slotFields, plainFields, kindFields]
  | cons f fields ih =>
    rw [List.foldl_cons, ih, take]
    by_cases hslot : f.type.SlotTyped
    · simp [slotFields, plainFields, kindFields, hslot]
    · by_cases hkind : f.name.text = "kind" <;> simp [slotFields, plainFields, kindFields, hslot, hkind]

theorem read_eq_ok {fields : List NamedField} {r : FieldRoles} : read fields = .ok r ↔
    (∀ f ∈ fields, f.type.SlotTyped → f.SaysSlot) ∧
      r = ⟨(slotFields fields).map fun f => (f.name, f.saidLinkage), (plainFields fields).map (·.name),
        !(kindFields fields).isEmpty⟩ := by
  rw [read, foldlM_eq_ok add_eq_ok, foldl_take]
  simp

end FieldRoles

namespace Item

/-- A struct with these fields that is a shape. -/
structure IsShape (item : Item) (fields : List NamedField) : Prop extends item.SaysShape where
  form : item.form = .struct (.named fields)
  slots : ∀ f ∈ fields, f.type.SlotTyped → f.SaysSlot
  kindField : item.IsShared → ∃ f ∈ fields, f.name.text = "kind" ∧ ¬f.type.SlotTyped

def slotTable (item : Item) (fields : List NamedField) : SlotTable where
  name := item.name
  generics := item.generics
  settings := item.shapeSettings
  slots := (slotFields fields).map fun f => (f.name, f.saidLinkage)
  attributes := (plainFields fields).map (·.name)

end Item

theorem SlotTable.ofItem?_eq_ok {item : Item} {t : SlotTable} :
    ofItem? item = .ok t ↔ ∃ fields, item.IsShape fields ∧ t = item.slotTable fields := by
  simp only [ofItem?, bind_eq_ok, ShapeSettings.read_eq_ok]
  constructor
  · rintro ⟨_, ⟨hheard, rfl⟩, h⟩
    split at h
    · next fields hform =>
      obtain ⟨_, hroles, h⟩ := bind_eq_ok.mp h
      obtain ⟨hslots, rfl⟩ := FieldRoles.read_eq_ok.mp hroles
      split at h
      · cases h
      · next hkind =>
        cases h
        refine ⟨fields, ⟨hheard, hform, hslots, fun hshared => kindFields_ne_nil.mp fun hnil => ?_⟩, rfl⟩
        exact hkind (by simp [Item.shapeSettings, hshared, hnil])
    · cases h
    · cases h
  · rintro ⟨fields, h, rfl⟩
    refine ⟨_, ⟨h.toSaysShape, rfl⟩, ?_⟩
    rw [h.form]
    refine bind_eq_ok.mpr ⟨_, FieldRoles.read_eq_ok.mpr ⟨h.slots, rfl⟩, if_neg fun hkind => ?_⟩
    have hshared : item.IsShared ∧ kindFields fields = [] := by
      simpa [Item.shapeSettings] using hkind
    exact kindFields_ne_nil.mpr (h.kindField hshared.1) hshared.2

/-! The code. -/

def Member.name : Member → String
  | .const _ _ name _ _ => name
  | .type _ name => name
  | .function f => f.name

namespace Block

/-- The value of the constant of a name. -/
def value? (b : Block) (name : String) : Option Words :=
  match b.members.find? (·.name = name) with
  | some (.const _ _ _ _ value) => some value
  | _ => none

/-- What the function of a name does. -/
def body? (b : Block) (name : String) : Option Body :=
  match b.members.find? (·.name = name) with
  | some (.function f) => f.body
  | _ => none

end Block

namespace NamedField

/-- The field of the operation. -/
def access (f : NamedField) : Words := ["self", ".", f.name.text]

/-- The name of the field, in quotes. -/
def label (f : NamedField) : String := Text.quoteString f.name.text

/-- The case of a child slot in a choice by places. -/
def childCase (f : NamedField) (place : Nat) : Arm where
  pattern := [toString place ++ "usize"]
  value := words ": : core : : option : : Option : : Some" ++ parens (
    words "crate : : slot : : SlotView : : new" ++
      parens (f.label :: "," :: f.access ++ words ". as_slice ( )") ++ [","])

/-- The call that hands out a slot to be installed. -/
def installation (f : NamedField) : Words :=
  "visit" :: parens ("&" :: f.access ++ "," :: (words "crate : : slot : : Linkage : :" ++
    [if f.IsDetached then "Detached" else "Attached"])) ++ [";"]

end NamedField

/-- The tables in the code for a shape, which are about the same fields in the same order. -/
structure Item.Tabulates (item : Item) (fields : List NamedField) (b : Block) : Prop where
  members : b.members.map Member.name =
    ["NAME", "KINDS", "SLOT_NAMES", "kind", "slot", "for_each_slot", "validate", "describe"]
  kinds : b.value? "KINDS" = some ("&" :: brackets (separated
    (item.kinds.map fun k => words "crate : : OperationKind : :" ++ [k.text])))
  slotNames : b.value? "SLOT_NAMES" = some ("&" :: brackets (separated
    ((childFields fields).map fun f => [f.label])))
  /-- Without an order of its own the shape has a case for every place in the table of names. -/
  slot : item.said? .shape "order" = none → b.body? "slot" = some (
    if childFields fields = [] then
      .code (words "let _ = index ;" ++ words ": : core : : option : : Option : : None")
    else .choice ["index"] ((childFields fields).zipIdx.map (fun f => f.1.childCase f.2) ++
      [⟨["_"], words ": : core : : option : : Option : : None"⟩]))
  forEachSlot : b.body? "for_each_slot" = some (.code (
    if slotFields fields = [] then words "let _ = visit ;"
    else (slotFields fields).flatMap NamedField.installation))
  /-- The one kind, unless an operation says which one it has. -/
  kind : if item.IsShared then b.body? "kind" = some (.code (words "self . kind"))
    else ∃ k, item.kinds = [k] ∧
      b.body? "kind" = some (.code (words "crate : : OperationKind : :" ++ [k.text]))
  validate : b.body? "validate" = some (.code (
    (if item.IsShared then
      words "if ! < Self as crate : : shape : : Shape > : : KINDS . contains ( & self . kind )" ++ braces (
        words "return : : core : : result : : Result : : Err" ++ parens (
          words "crate : : ConstructionError : : KindMismatch" ++ braces ("shape" :: ":" ::
            Text.quoteString item.name.text :: words ", kind : self . kind ,")) ++ [";"])
      else []) ++
    match item.said? .shape "validate" with
    | some method => "self" :: "." :: method.text :: parens ["header"]
    | none => words "let _ = header ; : : core : : result : : Result : : Ok ( ( ) )"))

/-- The slots that hold children are the fields that are not said to be detached. -/
theorem attached_slotTable (item : Item) (fields : List NamedField) :
    (item.slotTable fields).attached = (childFields fields).map (·.name) := by
  have hlinkage : ∀ f : NamedField, decide (f.saidLinkage = .attached) = decide ¬f.IsDetached := by
    intro f
    by_cases h : f.IsDetached <;> simp [NamedField.saidLinkage, h]
  simp only [SlotTable.attached, Item.slotTable, childFields, List.filter_map, List.map_map,
    Function.comp_def, hlinkage]

theorem tabulates {item : Item} {fields : List NamedField} (h : item.IsShape fields) :
    item.Tabulates fields (item.slotTable fields).block where
  members := rfl
  kinds := rfl
  slotNames := by
    have hvalue : (item.slotTable fields).block.value? "SLOT_NAMES" = some ("&" :: brackets (separated
        ((item.slotTable fields).slotNames.map fun n => [Text.quoteString n]))) := rfl
    rw [hvalue, SlotTable.slotNames, attached_slotTable, List.map_map, List.map_map]
    rfl
  slot horder := by
    have hbody : (item.slotTable fields).block.body? "slot" = some (item.slotTable fields).slotBody := rfl
    have harms : (item.slotTable fields).slotArms =
        (childFields fields).zipIdx.map fun f => f.1.childCase f.2 := by
      rw [SlotTable.slotArms, attached_slotTable, List.zipIdx_map, List.map_map]
      rfl
    have hnone : (item.slotTable fields).settings.order = none := horder
    rw [hbody, SlotTable.slotBody, hnone, harms, attached_slotTable, List.isEmpty_map]
    by_cases hempty : childFields fields = [] <;> simp [hempty, SlotTable.noneWords]
  forEachSlot := by
    have hbody : (item.slotTable fields).block.body? "for_each_slot" = some (.code
        (if (item.slotTable fields).slots.isEmpty then words "let _ = visit ;"
          else (item.slotTable fields).slots.flatMap SlotTable.installCall)) := rfl
    have hcall : ∀ f : NamedField, SlotTable.installCall (f.name, f.saidLinkage) = f.installation := by
      intro f
      by_cases hf : f.IsDetached <;>
        simp [SlotTable.installCall, NamedField.installation, NamedField.saidLinkage, hf,
          SlotTable.linkageWords, SlotTable.fieldWords, NamedField.access]
    have hcalls : (item.slotTable fields).slots.flatMap SlotTable.installCall =
        (slotFields fields).flatMap NamedField.installation := by
      simp [Item.slotTable, List.flatMap_map, hcall]
    rw [hbody, hcalls]
    by_cases hempty : slotFields fields = [] <;> simp [hempty, Item.slotTable]
  kind := by
    have hbody : (item.slotTable fields).block.body? "kind" = some (.code
        (if decide item.IsShared then words "self . kind"
          else item.kinds.head?.elim [] SlotTable.kindWords)) := rfl
    rw [hbody]
    by_cases hshared : item.IsShared
    · simp [hshared]
    · have hone : item.kinds.length = 1 := by
        have hsome := List.length_pos_iff.mpr h.named
        have hfew : ¬1 < item.kinds.length := fun hlt => hshared (h.several hlt)
        omega
      obtain ⟨k, hk⟩ := List.length_eq_one_iff.mp hone
      simp [hshared, hk, SlotTable.kindWords]
  validate := by
    have hbody : (item.slotTable fields).block.body? "validate" = some (.code (
        (if decide item.IsShared then (item.slotTable fields).membershipCheck else []) ++
          match item.said? .shape "validate" with
          | some method => SlotTable.fieldWords method ++ parens ["header"]
          | none => words "let _ = header ; : : core : : result : : Result : : Ok ( ( ) )")) := rfl
    rw [hbody]
    simp only [decide_eq_true_eq]
    rfl

theorem shapeCode?_eq_ok {item : Item} {code : String} : shapeCode? item = .ok code ↔
    ∃ fields, item.IsShape fields ∧ code = render [(item.slotTable fields).block] := by
  have htable : shapeCode? item = .ok code ↔
      ∃ t, SlotTable.ofItem? item = .ok t ∧ code = render [t.block] := by
    rw [shapeCode?]
    cases SlotTable.ofItem? item <;> simp [eq_comm]
  simp only [htable, SlotTable.ofItem?_eq_ok]
  constructor
  · rintro ⟨_, ⟨fields, h, rfl⟩, hcode⟩
    exact ⟨fields, h, hcode⟩
  · rintro ⟨fields, h, hcode⟩
    exact ⟨_, ⟨fields, h, rfl⟩, hcode⟩

end BoundTree.Derive
