import BoundTree.Proofs.Exactness
import BoundTree.Proofs.OneLine
import BoundTree.Proofs.Rendering

/-!
The types that are exchanged, all together. Main statement: what is written is read back, as a value and as a
text, the spellings of what is written are what is read, and what has a fault is refused.
-/
namespace BoundTree
namespace Wire

/-! What is written has a text. -/

theorem plain_nat (depth : Nat) {n : Nat} (h : n < UInt64.size) : (Json.int n).Plain depth := by
  have hlow : -Int.pow 2 63 ≤ 0 := by decide
  have hpow : Int.pow 2 64 = UInt64.size := rfl
  exact .int depth ⟨by omega, by omega⟩

theorem plain_uint32 (depth : Nat) (n : UInt32) : (write n).Plain depth := by
  have hsize : UInt32.size < UInt64.size := by decide
  exact plain_nat depth (Nat.lt_trans n.toNat_lt hsize)

theorem plain_handle (depth : Nat) {c : Category} (h : Handle c) : (write h).Plain depth :=
  plain_uint32 depth h.index

theorem plain_optional (depth : Nat) {c : Category} (h : Option (Handle c)) : (write h).Plain depth := by
  cases h with
  | none => exact .null depth
  | some h => exact plain_handle depth h

theorem plain_bool (depth : Nat) (b : Bool) : (write b).Plain depth := .bool depth b

theorem plain_conversion (depth : Nat) (c : Conversion) : (write c).Plain (depth + 1) := by
  have hnames : conversionFields.Nodup := by decide
  refine .obj hnames ?_
  simp only [List.forall_mem_cons, List.not_mem_nil, false_imp_iff, implies_true, and_true, plain_bool,
    plain_optional]

theorem plain_forEachInfo (depth : Nat) (i : ForEachInfo) : (write i).Plain (depth + 2) := by
  have hnames : forEachFields.Nodup := by decide
  refine .obj hnames ?_
  simp only [List.forall_mem_cons, List.not_mem_nil, false_imp_iff, implies_true, and_true, plain_bool,
    plain_optional, plain_handle, plain_conversion]

theorem plain_span (depth : Nat) (s : Span) : (write s).Plain (depth + 1) := by
  have hnames : ["start", "end"].Nodup := by decide
  refine .obj hnames ?_
  simp only [List.forall_mem_cons, List.not_mem_nil, false_imp_iff, implies_true, and_true, plain_uint32]

theorem plain_locus (depth : Nat) (l : Locus) : (write l).Plain (depth + 2) := by
  have hnames : ["file", "span"].Nodup := by decide
  refine .obj hnames ?_
  simp only [List.forall_mem_cons, List.not_mem_nil, false_imp_iff, implies_true, and_true, plain_handle,
    plain_span]

/-- The value of a constructor is the only member. -/
theorem plain_carried {depth : Nat} {j : Json} (name : String) (h : j.Plain depth) :
    (Json.obj [(name, j)]).Plain (depth + 1) := by
  refine .obj (List.nodup_cons.mpr ⟨List.not_mem_nil, List.nodup_nil⟩) ?_
  simpa only [List.mem_singleton, forall_eq] using h

theorem plain_handlerPlaceholder (depth : Nat) (p : HandlerPlaceholder) : (write p).Plain (depth + 1) := by
  cases p with
  | callsiteArgument n => exact plain_carried _ (plain_uint32 depth n)
  | callsiteReceiver => exact .str _ _
  | trailingValidityArgument => exact .str _ _

theorem plain_constant (depth : Nat) {c : Constant} (h : c.float? = none) : (write c).Plain (depth + 1) := by
  cases c with
  | null => exact .str _ _
  | bool b => exact plain_carried _ (.bool depth b)
  | char ch => exact plain_carried _ (.str depth _)
  | int n =>
    have hhigh : Int.pow 2 63 ≤ Int.pow 2 64 := by decide
    exact plain_carried _ (.int depth ⟨n.le_toInt, Int.lt_of_lt_of_le n.toInt_lt hhigh⟩)
  | uint n => exact plain_carried _ (plain_nat depth n.toNat_lt)
  | float x => cases h
  | string s => exact plain_carried _ (.str depth s)

/-! The types of the library. -/

/-- A type whose values are exchanged. -/
structure Exchanged where
  name : String
  Value : Type
  wire : Wire Value
  form : Form
  debug : Value → String
  /-- The double that a value is. -/
  double? : Value → Option Binary64 := fun _ => none

namespace Exchanged

attribute [instance] Exchanged.wire

/-- A type without doubles. -/
def ofWire (name : String) (α : Type) [Wire α] (form : Form) (debug : α → String) : Exchanged where
  name := name
  Value := α
  wire := inferInstance
  form := form
  debug := debug

def ofNamed (name : String) (α : Type) [Named α] : Exchanged := ofWire name α (named α) Named.name

def handlerPlaceholder : Exchanged :=
  ofWire "HandlerPlaceholderKind" HandlerPlaceholder handlerPlaceholderForm HandlerPlaceholder.debug

def conversion : Exchanged := ofWire "ConversionInfo" Conversion conversionForm Conversion.debug

def forEachInfo : Exchanged := ofWire "ForEachLoopInfo" ForEachInfo forEachForm ForEachInfo.debug

def constant : Exchanged :=
  { ofWire "ConstantValue" Constant constantForm Constant.debug with double? := Constant.float? }

def span : Exchanged := ofWire "Span" Span spanForm Span.debug

def locus : Exchanged := ofWire "SourceLocus" Locus locusForm Locus.debug

def handle (c : Category) : Exchanged := ofWire c.typeName (Handle c) word Handle.debug

def all : List Exchanged :=
  [ofNamed "OperationKind" Kind, ofNamed "KindFamily" Family, ofNamed "UnaryOperatorKind" UnaryOperator,
    ofNamed "BinaryOperatorKind" BinaryOperator, ofNamed "BranchKind" BranchKind, ofNamed "LoopKind" LoopKind,
    ofNamed "CaseKind" CaseKind, ofNamed "ArgumentKind" ArgumentKind, ofNamed "RefKind" RefKind,
    ofNamed "InstanceReferenceKind" InstanceReferenceKind, ofNamed "PlaceholderKind" PlaceholderKind,
    handlerPlaceholder, conversion, forEachInfo, constant, span, locus] ++ Category.all.map handle

/-- What is known of a type for values to survive the exchange. -/
structure Sound (t : Exchanged) : Prop where
  echoes : echo? t.name = echoAs? t.Value t.debug
  spells_of_read : ∀ (j : Json) (v : t.Value), read? j = some v → t.form.Spells j (write v)
  exact : ∀ v : t.Value, t.double? v = none → Exact t.form v
  plain : ∀ v : t.Value, t.double? v = none → (write v).Plain 127

theorem sound_ofWire {name : String} {α : Type} [Wire α] {form : Form} {debug : α → String}
    (hechoes : echo? name = echoAs? α debug) (hexact : ∀ a : α, Exact form a)
    (hplain : ∀ a : α, (write a).Plain 127) : (ofWire name α form debug).Sound where
  echoes := hechoes
  spells_of_read j a := ((hexact a).reads_iff j).mp
  exact a _ := hexact a
  plain a _ := hplain a

/-- A type of named values, whose names are different. -/
theorem sound_ofNamed {name : String} {α : Type} [Named α] (hechoes : echo? name = echoAs? α Named.name)
    (hmem : ∀ a : α, a ∈ (Named.all : List α))
    (hnames : ∀ a ∈ (Named.all : List α), Named.ofName? (Named.name a) = some a) : (ofNamed name α).Sound :=
  have hexact (a : α) : Exact (named α) a := exact_named (hmem a) (hnames a (hmem a))
  sound_ofWire hechoes hexact fun _ => .str _ _

theorem sound_constant : constant.Sound where
  echoes := rfl
  spells_of_read j c := spells_of_read_constant
  exact c h := exact_constant fun x hx => by
    subst hx
    cases h
  plain c h := plain_constant 126 h

theorem sound_handle (c : Category) : (handle c).Sound := by
  have hechoes : echo? c.typeName = echoAs? (Handle c) Handle.debug := by cases c <;> rfl
  exact sound_ofWire hechoes exact_handle (plain_handle 127)

theorem sound_of_mem {t : Exchanged} (ht : t ∈ all) : t.Sound := by
  rcases List.mem_append.mp ht with ht | ht
  · simp only [List.mem_cons, List.not_mem_nil, or_false] at ht
    rcases ht with rfl | rfl | rfl | rfl | rfl | rfl | rfl | rfl | rfl | rfl | rfl | rfl | rfl | rfl | rfl | rfl |
      rfl
    · exact sound_ofNamed rfl Kind.mem_all fun k _ => k.ofName?_name
    · exact sound_ofNamed rfl Family.mem_all (by decide +kernel)
    · exact sound_ofNamed rfl UnaryOperator.mem_all (by decide +kernel)
    · exact sound_ofNamed rfl BinaryOperator.mem_all (by decide +kernel)
    · exact sound_ofNamed rfl BranchKind.mem_all (by decide +kernel)
    · exact sound_ofNamed rfl LoopKind.mem_all (by decide +kernel)
    · exact sound_ofNamed rfl CaseKind.mem_all (by decide +kernel)
    · exact sound_ofNamed rfl ArgumentKind.mem_all (by decide +kernel)
    · exact sound_ofNamed rfl RefKind.mem_all (by decide +kernel)
    · exact sound_ofNamed rfl InstanceReferenceKind.mem_all (by decide +kernel)
    · exact sound_ofNamed rfl PlaceholderKind.mem_all (by decide +kernel)
    · exact sound_ofWire rfl exact_handlerPlaceholder (plain_handlerPlaceholder 126)
    · exact sound_ofWire rfl exact_conversion (plain_conversion 126)
    · exact sound_ofWire rfl exact_forEachInfo (plain_forEachInfo 125)
    · exact sound_constant
    · exact sound_ofWire rfl exact_span (plain_span 126)
    · exact sound_ofWire rfl exact_locus (plain_locus 125)
  · obtain ⟨c, -, rfl⟩ := List.mem_map.mp ht
    exact sound_handle c

/-- No other type is exchanged. -/
theorem echo?_eq_none {name : String} (hname : name ∉ all.map Exchanged.name) : echo? name = fun _ => none := by
  unfold echo?
  split
  case h_18 =>
    split
    · rename_i c hc
      obtain rfl : c.typeName = name := by simpa using List.find?_some hc
      have hmem : handle c ∈ all := List.mem_append_right _ (List.mem_map_of_mem c.mem_all)
      exact absurd (List.mem_map_of_mem hmem) hname
    · rfl
  all_goals exact absurd (by decide) hname

end Exchanged

end Wire
end BoundTree
