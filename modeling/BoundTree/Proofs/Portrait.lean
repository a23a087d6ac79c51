import BoundTree.Proofs.Description
import BoundTree.Proofs.Retouch
import BoundTree.Session.Verify

/-!
What is seen of operations that are as they are described: their kinds in pre-order, their slots, the
lines of their dump, and what is wrong with their links. All of it is read off the description, and
nothing of it depends on when anything is built, but for the numbers that names get.
-/
namespace BoundTree

/-- The value without what it gets only when it is built: the numbers of names, and the place of a
function. -/
def AttributeValue.blank : AttributeValue → AttributeValue
  | .symbol _ => .symbol ⟨0⟩
  | .optionalSymbols ss => .optionalSymbols (ss.map (·.map fun _ => ⟨0⟩))
  | .function f => .function { f with node := 0 }
  | v => v

theorem AttributeValue.resembles_blank (v : AttributeValue) : v.Resembles v.blank := by
  cases v with
  | symbol s => exact .symbol _ _
  | optionalSymbols ss => exact .optionalSymbols _ _
  | function f => exact .function rfl
  | _ => exact .same _

theorem AttributeValue.type_blank (v : AttributeValue) : v.blank.type = v.type := v.resembles_blank.type

namespace Payload

def blank (p : Payload) : Payload where
  shape := p.shape
  tag := p.tag
  attributes := p.attributes.map fun a => (a.1, a.2.blank)
  typed := by simpa [Function.comp_def, AttributeValue.type_blank] using p.typed

theorem shape_blank (p : Payload) : p.blank.shape = p.shape := rfl

theorem kind_blank (p : Payload) : p.blank.kind = p.kind := rfl

@[simp] theorem evaluationOrder_blank (p : Payload) : p.blank.evaluationOrder = p.evaluationOrder :=
  p.evaluationOrder_retouch AttributeValue.resembles_blank

theorem error?_blank (p : Payload) (h : Header) : p.blank.error? h = p.error? h :=
  p.error?_retouch AttributeValue.resembles_blank h

theorem make?_blank (shape : Shape) (tag : Option Kind) (values : List AttributeValue) :
    make? shape tag (values.map AttributeValue.blank) = (make? shape tag values).map blank :=
  make?_retouch AttributeValue.resembles_blank shape tag values

end Payload

/-! Names keep their numbers. -/

/-- Every name of the one table has the same number in the other. -/
def NameTable.Le (x y : NameTable) : Prop := ∀ name s, x.get? name = some s → y.get? name = some s

namespace NameTable

theorem Le.refl (x : NameTable) : x.Le x := fun _ _ h => h

theorem Le.trans {x y z : NameTable} (h : x.Le y) (k : y.Le z) : x.Le z :=
  fun name s hs => k name s (h name s hs)

theorem le_intern (x : NameTable) (name : String) : x.Le (x.intern name).2 := by
  intro other s hs
  unfold intern
  cases hn : x.get? name with
  | some _ => exact hs
  | none =>
    obtain ⟨i, hi, rfl⟩ := Option.map_eq_some_iff.mp hs
    simp [get?, Array.findIdx?_push, hi]

theorem get?_intern (x : NameTable) (name : String) :
    (x.intern name).2.get? name = some (x.intern name).1 := by
  unfold intern
  cases hn : x.get? name with
  | some _ => exact hn
  | none =>
    have hidx : x.names.findIdx? (· == name) = none := by simpa [get?] using hn
    simp [get?, Array.findIdx?_push, hidx]

/-- A name is shown by its number. -/
def shown (x : NameTable) (name : String) : String := (x.get? name).elim "" Symbol.debug

end NameTable

/-! What is seen of one operation. -/

namespace Description

def header : Description → Header
  | .mk header .. => header

def shape : Description → Shape
  | .mk _ shape .. => shape

def tag : Description → Option Kind
  | .mk _ _ tag .. => tag

def traits : Description → List Trait
  | .mk _ _ _ traits _ => traits

def slots : Description → List (List Description)
  | .mk _ _ _ _ slots => slots

def kind (d : Description) : Kind := d.shape.kindOf d.tag

def facts (d : Description) : LinkFacts := ⟨d.kind, d.header.model⟩

end Description

def Trait.blank : Trait → AttributeValue
  | .plain v => v.blank
  | .symbol _ => .symbol ⟨0⟩
  | .optionalSymbols names => .optionalSymbols (names.map (·.map fun _ => ⟨0⟩))
  | .function d => .function ⟨0, d.kind, d.header.locus⟩

def Trait.text (names : NameTable) : Trait → String
  | .plain v => v.debug
  | .symbol name => names.shown name
  | .optionalSymbols ns => Text.listed (ns.map fun n => Text.optional (n.map names.shown))
  | .function d => d.kind.name ++ "@" ++ d.header.locus.display

/-- The names that are shown. -/
def Trait.names : Trait → List String
  | .symbol name => [name]
  | .optionalSymbols ns => ns.filterMap id
  | _ => []

theorem Trait.text_congr {x y : NameTable} {t : Trait}
    (h : ∀ name ∈ t.names, x.get? name = y.get? name) : t.text x = t.text y := by
  cases t with
  | plain v => rfl
  | symbol name => simp [text, NameTable.shown, h name (by simp [names])]
  | optionalSymbols ns =>
    have hshow : ∀ n ∈ ns, n.map x.shown = n.map y.shown := by
      intro n hn
      cases n with
      | none => rfl
      | some name => simp [NameTable.shown, h name (by simpa [names] using hn)]
    simp only [text]
    rw [List.map_congr_left fun n hn => by rw [hshow n hn]]
  | function d => rfl

namespace Description

/-- What is particular to the operation, but for what it gets when it is built. -/
def payload? (d : Description) : Option Payload :=
  Payload.make? d.shape d.tag (d.traits.map Trait.blank)

/-- The places of the child slots in evaluation order. -/
def order (d : Description) : List Nat := d.payload?.elim [] (·.evaluationOrder)

/-- The child slots in evaluation order, with their names. -/
def namedSlots (d : Description) : List (String × List Description) :=
  d.order.filterMap fun i => do
    let field ← d.shape.slots[i]?
    let ds ← d.slots[i]?
    return (field.name, ds)

/-- The children in evaluation order. -/
def children (d : Description) : List Description := (d.order.filterMap (d.slots[·]?)).flatten

/-- Of what there is for every slot, that which there is for those with children. -/
def ofAttached {α : Type} (d : Description) (slots : List (List α)) : List α :=
  (d.shape.slots.zip slots).flatMap fun x => if x.1.linkage = .attached then x.2 else []

/-- The children in declaration order. -/
def attached (d : Description) : List Description := d.ofAttached d.slots

/-- What is wrong with the model of a child. -/
def mismatch? (d c : Description) : Option LinkViolation :=
  if ¬c.facts.agree d.facts then
    some (.modelMismatch c.kind d.kind c.header.model d.header.model)
  else none

/-- What is wrong with the models of the children. -/
def faults (d : Description) : List LinkViolation := d.attached.filterMap d.mismatch?

/-- The names of the child slots in evaluation order, and how many children each has. -/
def slotCounts (d : Description) : List (String × Nat) := d.namedSlots.map fun x => (x.1, x.2.length)

/-- The line in a dump. -/
def text (names : NameTable) (d : Description) : String :=
  Session.factsText d.kind d.header
    (((d.shape.attributes.map (·.1)).zip d.traits).map fun a => (a.1, a.2.text names))

/-! What is seen of an operation with all below it. -/

mutual

/-- What a description comes to, given what those in its slots come to. -/
def fold {α : Type} (f : Description → List (List α) → α) : Description → α
  | .mk header shape tag traits slots => f (.mk header shape tag traits slots) (foldSlots f slots)

def foldSlots {α : Type} (f : Description → List (List α) → α) :
    List (List Description) → List (List α)
  | [] => []
  | ds :: slots => foldEach f ds :: foldSlots f slots

def foldEach {α : Type} (f : Description → List (List α) → α) : List Description → List α
  | [] => []
  | d :: ds => fold f d :: foldEach f ds

end

theorem fold_eq {α : Type} (f : Description → List (List α) → α) (d : Description) :
    d.fold f = f d (d.slots.map (·.map (fold f))) := by
  have heach : ∀ ds, foldEach f ds = ds.map (fold f) := by
    intro ds
    induction ds with
    | nil => rfl
    | cons d ds ih => rw [foldEach, ih, List.map_cons]
  have hslots : ∀ slots, foldSlots f slots = slots.map (·.map (fold f)) := by
    intro slots
    induction slots with
    | nil => rfl
    | cons ds slots ih => rw [foldSlots, ih, heach, List.map_cons]
  cases d with
  | mk header shape tag traits slots =>
    rw [fold, hslots]
    rfl

/-- What is reckoned slot by slot can be reckoned child by child. -/
theorem ofAttached_map {α : Type} (d : Description) (f : Description → α) :
    d.ofAttached (d.slots.map (·.map f)) = d.attached.map f := by
  simp only [attached, ofAttached, List.zip_map_right, List.flatMap_map, List.map_flatMap]
  refine List.flatMap_congr fun x _ => ?_
  by_cases h : x.1.linkage = .attached <;> simp [h]

/-- The operation and all below it, in pre-order. -/
def all : Description → List Description :=
  fold fun d below => d :: (d.order.filterMap (below[·]?)).flatten.flatten

theorem all_eq (d : Description) : d.all = d :: d.children.flatMap all := by
  unfold all
  rw [fold_eq]
  simp only [children, List.getElem?_map, List.flatMap, List.map_flatten, List.map_filterMap]

/-- The lines of a dump, from a level on. -/
def lines (names : NameTable) : Description → Nat → List Session.Line :=
  fold fun d below level =>
    ⟨level, d.text names⟩ :: (d.order.filterMap fun i => do
      let field ← d.shape.slots[i]?
      let blocks ← below[i]?
      return (field.name, blocks)).flatMap fun x =>
        ⟨level + 1, Session.slotText x.1 x.2.isEmpty⟩ :: x.2.flatMap (· (level + 2))

theorem lines_eq (names : NameTable) (d : Description) (level : Nat) :
    d.lines names level = ⟨level, d.text names⟩ :: d.namedSlots.flatMap fun x =>
      ⟨level + 1, Session.slotText x.1 x.2.isEmpty⟩ :: x.2.flatMap (·.lines names (level + 2)) := by
  unfold lines
  rw [fold_eq, namedSlots]
  congr 1
  induction d.order with
  | nil => rfl
  | cons i order ih =>
    cases hf : d.shape.slots[i]? with
    | none => simpa [hf] using ih
    | some field =>
      cases hs : d.slots[i]? with
      | none => simpa [hf, hs] using ih
      | some ds => simpa [hf, hs, List.flatMap_map] using ih

/-- The text of a dump. -/
def dumpText (names : NameTable) (d : Description) : String :=
  String.join ((d.lines names 0).map Session.Line.render)

/-- What a check of the tree finds wrong: first at the operation, then below its children, the last one
first. -/
def violations : Description → List LinkViolation :=
  fold fun d below => d.faults ++ (d.ofAttached below).reverse.flatten

theorem violations_eq (d : Description) :
    d.violations = d.faults ++ d.attached.reverse.flatMap violations := by
  unfold violations
  rw [fold_eq, ofAttached_map, List.flatMap, List.map_reverse]

/-- How many operations there are. -/
def size (d : Description) : Nat := d.all.length

theorem size_eq (d : Description) : d.size = 1 + (d.children.map size).sum := by
  rw [size, all_eq, List.length_cons, List.length_flatMap, Nat.add_comm]
  rfl

theorem size_lt {d e : Description} (h : e ∈ d.children) : e.size < d.size := by
  have hle : e.size ≤ (d.children.map size).sum := List.le_sum_of_mem (List.mem_map_of_mem h)
  rw [d.size_eq]
  omega

theorem mem_children_of_namedSlots {d : Description} {x : String × List Description}
    (h : x ∈ d.namedSlots) : x.2 ⊆ d.children := by
  obtain ⟨i, hi, hx⟩ := List.mem_filterMap.mp h
  obtain ⟨field, -, hx⟩ := Option.bind_eq_some_iff.mp hx
  obtain ⟨ds, hds, hx⟩ := Option.bind_eq_some_iff.mp hx
  cases hx
  intro e he
  exact List.mem_flatten.mpr ⟨ds, List.mem_filterMap.mpr ⟨i, hi, hds⟩, he⟩

/-! Names. -/

/-- The names that are shown at the operation and below it. -/
def names (d : Description) : List String := d.all.flatMap fun e => e.traits.flatMap Trait.names

theorem text_congr {d : Description} {x y : NameTable}
    (h : ∀ name ∈ d.traits.flatMap Trait.names, x.get? name = y.get? name) : d.text x = d.text y := by
  unfold text
  refine congrArg _ (List.map_congr_left fun a ha => ?_)
  have htrait : a.2.text x = a.2.text y := Trait.text_congr fun name hname =>
    h name (List.mem_flatMap.mpr ⟨a.2, (List.of_mem_zip ha).2, hname⟩)
  rw [htrait]

theorem lines_congr {x y : NameTable} {d : Description}
    (h : ∀ name ∈ d.names, x.get? name = y.get? name) (level : Nat) :
    d.lines x level = d.lines y level := by
  induction hsize : d.size using Nat.strong_induction_on generalizing d level with
  | _ size ih =>
    subst hsize
    have hnames : d.names = d.traits.flatMap Trait.names ++ d.children.flatMap names := by
      unfold names
      rw [d.all_eq, List.flatMap_cons, List.flatMap_assoc]
    rw [hnames] at h
    have htext : d.text x = d.text y :=
      text_congr fun name hname => h name (List.mem_append_left _ hname)
    have hbelow : ∀ e ∈ d.children, ∀ level, e.lines x level = e.lines y level := by
      intro e he level
      refine ih e.size (size_lt he) (fun name hname => h name ?_) level rfl
      exact List.mem_append_right _ (List.mem_flatMap.mpr ⟨e, he, hname⟩)
    rw [lines_eq, lines_eq, htext]
    refine congrArg _ (List.flatMap_congr fun slot hslot => congrArg _ ?_)
    exact List.flatMap_congr fun e he => hbelow e (mem_children_of_namedSlots hslot he) _

/-- Dumps differ by the numbers of the names that are shown, and by nothing else. -/
theorem dumpText_congr {x y : NameTable} {d : Description}
    (h : ∀ name ∈ d.names, x.get? name = y.get? name) : d.dumpText x = d.dumpText y := by
  rw [dumpText, dumpText, lines_congr h]

/-- The places of the child slots lead to what there is for them. -/
theorem filterMap_attachedPlaces {α : Type} (fields : List SlotField) (xs : List α) :
    (((List.range fields.length).filter fun i =>
      fields[i]?.map (·.linkage) = some .attached).filterMap (xs[·]?)) =
    (fields.zip xs).filterMap fun x => if x.1.linkage = .attached then some x.2 else none := by
  induction fields generalizing xs with
  | nil => simp
  | cons field fields ih =>
    cases xs with
    | nil => simp
    | cons x xs =>
      have hrest := ih xs
      simp only [List.length_cons, List.range_succ_eq_map, List.filter_cons, List.filter_map,
        Function.comp_def, List.getElem?_cons_zero, List.getElem?_cons_succ, Option.map_some,
        List.zip_cons_cons, List.filterMap_cons]
      by_cases h : field.linkage = .attached
      · simpa [h, List.filterMap_map, Function.comp_def] using hrest
      · simpa [h, List.filterMap_map, Function.comp_def] using hrest

/-- The children in evaluation order are those in declaration order. -/
theorem attached_perm {d : Description} {p : Payload} (hp : d.payload? = some p)
    (hslots : d.slots.length = d.shape.slots.length) : d.attached.Perm d.children := by
  have hshape : p.shape = d.shape := by
    unfold payload? Payload.make? at hp
    dsimp only at hp
    split at hp
    · cases hp
      rfl
    · cases hp
  have hattached : d.attached = ((d.shape.slots.zip d.slots).filterMap fun x =>
      if x.1.linkage = .attached then some x.2 else none).flatten := by
    unfold attached ofAttached
    induction d.shape.slots.zip d.slots with
    | nil => rfl
    | cons x xs ih => by_cases h : x.1.linkage = .attached <;> simp [h, ih]
  have horder : d.order = p.evaluationOrder := by simp [order, hp]
  rw [hattached, children, horder, Payload.evaluationOrder, hshape]
  split
  · next h =>
    obtain ⟨a, b, c, habc⟩ : ∃ a b c, d.slots = [a, b, c] := by
      rw [h.1] at hslots
      exact List.length_eq_three.mp hslots
    rw [h.1, habc]
    have hswap : (a ++ (b ++ c)).Perm (b ++ (a ++ c)) := List.perm_append_comm_assoc a b c
    simpa [Shape.slots, Shape.descriptor, SlotField.optional, SlotField.one] using hswap
  · rw [Payload.childPlaces, hshape, filterMap_attachedPlaces]

/-- Everything is such that it can be built, the links being checked or not. -/
inductive Valid (verifies : Bool) : Description → Prop
  | intro {d : Description} {p : Payload} (payload : d.payload? = some p)
      (accepted : p.error? d.header = none)
      (arities : List.Forall₂ (fun field ds => field.arity.admits ds.length = true) d.shape.slots
        d.slots)
      (models : verifies = true → d.faults = [])
      (values : ∀ ds ∈ d.slots, ∀ e ∈ ds, Valid verifies e)
      (functions : ∀ e, .function e ∈ d.traits → Valid verifies e) : Valid verifies d

end Description
end BoundTree
