import BoundTree.Session.Dump

/-!
What is written of an operation stays on its line. Main statement: whatever constants, strings and
characters an operation has, its text holds no line break, and it begins with the kind and a blank.
-/
namespace BoundTree

namespace Text

/-- Nothing in a text ends the line. -/
def OneLine (s : String) : Prop := '\n' ∉ s.toList

instance (s : String) : Decidable (OneLine s) := inferInstanceAs (Decidable ('\n' ∉ s.toList))

@[simp] theorem oneLine_ofList {cs : List Char} : OneLine (String.ofList cs) ↔ '\n' ∉ cs := by
  rw [OneLine, String.toList_ofList]

@[simp] theorem oneLine_append {a b : String} : OneLine (a ++ b) ↔ OneLine a ∧ OneLine b := by
  rw [OneLine, String.toList_append, List.mem_append, not_or]
  rfl

theorem oneLine_join {l : List String} (h : ∀ s ∈ l, OneLine s) : OneLine (String.join l) := by
  rw [OneLine, String.toList_join, List.mem_flatMap]
  rintro ⟨s, hs, hmem⟩
  exact h s hs hmem

/-- Of letters, digits and underscores. -/
def Word (s : String) : Prop := s.toList.all (fun c => c.isAlphanum || c == '_') = true

instance (s : String) : Decidable (Word s) := inferInstanceAs (Decidable (_ = true))

theorem word_ofList {cs : List Char} (h : cs.all (fun c => c.isAlphanum || c == '_') = true) :
    Word (String.ofList cs) := by
  rw [Word, String.toList_ofList, h]

theorem forall_word_nil : ∀ name ∈ ([] : List String), Word name := fun _ h => nomatch h

theorem forall_word_cons {cs : List Char} {names : List String}
    (h : cs.all (fun c => c.isAlphanum || c == '_') = true) (hnames : ∀ name ∈ names, Word name) :
    ∀ name ∈ String.ofList cs :: names, Word name :=
  List.forall_mem_cons.mpr ⟨word_ofList h, hnames⟩

theorem Word.notMem {s : String} (h : Word s) {c : Char} (hc : (c.isAlphanum || c == '_') = false) :
    c ∉ s.toList := by
  intro hmem
  have hword := List.all_eq_true.mp h c hmem
  rw [hc] at hword
  cases hword

theorem Word.oneLine {s : String} (h : Word s) : OneLine s := h.notMem (by decide)

/-! Structured values. -/

theorem oneLine_intercalate {separator : String} (hseparator : OneLine separator) {l : List String}
    (h : ∀ s ∈ l, OneLine s) : OneLine (separator.intercalate l) := by
  induction l with
  | nil => exact String.intercalate_nil.symm ▸ (by decide : OneLine "")
  | cons a l ih =>
    have ha := h a List.mem_cons_self
    have hrest := ih fun s hs => h s (List.mem_cons_of_mem a hs)
    cases l with
    | nil => rwa [String.intercalate_singleton]
    | cons b l =>
      rw [String.intercalate_cons_cons, oneLine_append, oneLine_append]
      exact ⟨⟨ha, hseparator⟩, hrest⟩

theorem oneLine_truth (b : Bool) : OneLine (truth b) := by cases b <;> decide

theorem oneLine_applied {name value : String} (hname : OneLine name) (hvalue : OneLine value) :
    OneLine (applied name value) := by
  have hmarks : OneLine "(" ∧ OneLine ")" := by decide
  simp only [applied, oneLine_append]
  exact ⟨⟨⟨hname, hmarks.1⟩, hvalue⟩, hmarks.2⟩

theorem oneLine_optional {value : Option String} (h : ∀ s ∈ value, OneLine s) :
    OneLine (optional value) := by
  cases value with
  | none => decide
  | some s => exact oneLine_applied (by decide) (h s rfl)

theorem oneLine_listed {l : List String} (h : ∀ s ∈ l, OneLine s) : OneLine (listed l) := by
  have hmarks : OneLine "[" ∧ OneLine "]" := by decide
  simp only [listed, oneLine_append]
  exact ⟨⟨hmarks.1, oneLine_intercalate (by decide) h⟩, hmarks.2⟩

theorem oneLine_record {name : String} (hname : OneLine name) {fields : List (String × String)}
    (h : ∀ f ∈ fields, OneLine f.1 ∧ OneLine f.2) : OneLine (record name fields) := by
  have hmarks : OneLine " \x7b " ∧ OneLine " \x7d" := by decide
  have hcolon : OneLine ": " := by decide
  have hfields : OneLine (joinFields fields) := by
    refine oneLine_intercalate (by decide) fun s hs => ?_
    obtain ⟨f, hf, rfl⟩ := List.mem_map.mp hs
    simp only [oneLine_append]
    exact ⟨⟨(h f hf).1, hcolon⟩, (h f hf).2⟩
  unfold record
  split
  · exact hname
  · simp only [oneLine_append]
    exact ⟨⟨⟨hname, hmarks.1⟩, hfields⟩, hmarks.2⟩

/-! Numbers. -/

theorem digitChar_ne_newline (n : Nat) : n.digitChar ≠ '\n' := by
  rcases Nat.lt_or_ge n 16 with hlt | hge
  · have htable : ∀ n < 16, n.digitChar ≠ '\n' := by decide
    exact htable n hlt
  · have hnone : n.digitChar = '*' := by
      unfold Nat.digitChar
      repeat rw [if_neg (by omega)]
    rw [hnone]
    decide

theorem newline_notMem_toDigitsCore (base fuel n : Nat) {digits : List Char} (h : '\n' ∉ digits) :
    '\n' ∉ Nat.toDigitsCore base fuel n digits := by
  induction fuel generalizing n digits with
  | zero => exact h
  | succ fuel ih =>
    have hdigits : '\n' ∉ (n % base).digitChar :: digits :=
      List.not_mem_cons_of_ne_of_not_mem (digitChar_ne_newline _).symm h
    rw [Nat.toDigitsCore]
    split
    · exact hdigits
    · exact ih _ hdigits

theorem newline_notMem_toDigits (base n : Nat) : '\n' ∉ Nat.toDigits base n :=
  newline_notMem_toDigitsCore base (n + 1) n List.not_mem_nil

theorem oneLine_nat (n : Nat) : OneLine (toString n) := by
  have hrepr : (toString n).toList = Nat.toDigits 10 n := Nat.toList_repr
  rw [OneLine, hrepr]
  exact newline_notMem_toDigits 10 n

theorem oneLine_int (n : Int) : OneLine (toString n) := by
  cases n with
  | ofNat n => exact oneLine_nat n
  | negSucc n => exact oneLine_append.mpr ⟨by decide, oneLine_nat (n + 1)⟩

/-! Quoted texts. -/

theorem newline_notMem_escapeChar (mark : QuoteMark) (c : Char) : '\n' ∉ escapeChar mark c := by
  have hmark : '\n' ≠ mark.char := by cases mark <;> decide
  rw [escapeChar]
  by_cases hc : c = '\n'
  · rw [hc]
    cases mark <;> decide
  · have hkept : '\n' ∉ [c] := List.not_mem_cons_of_ne_of_not_mem (Ne.symm hc) List.not_mem_nil
    have hmarked : '\n' ∉ ['\\', c] := List.not_mem_cons_of_ne_of_not_mem (by decide) hkept
    have hcode : '\n' ∉ escapeCode c := by
      simpa [escapeCode] using newline_notMem_toDigits 16 c.toNat
    repeat' split
    all_goals first
      | exact hkept
      | exact hmarked
      | exact hcode
      | decide

theorem newline_notMem_quotedChars (mark : QuoteMark) (cs : List Char) : '\n' ∉ quotedChars mark cs := by
  have hmark : '\n' ≠ mark.char := by cases mark <;> decide
  simp [quotedChars, hmark, newline_notMem_escapeChar]

theorem oneLine_quoteString (s : String) : OneLine (quoteString s) :=
  oneLine_ofList.mpr (newline_notMem_quotedChars .double s.toList)

theorem oneLine_quoteChar (c : Char) : OneLine (quoteChar c) :=
  oneLine_ofList.mpr (newline_notMem_quotedChars .single [c])

end Text

open Text

/-! Doubles and constants. -/

namespace Binary64

theorem oneLine_zeros (n : Nat) : OneLine (zeros n) :=
  oneLine_ofList.mpr fun h => absurd (List.eq_of_mem_replicate h) (by decide)

theorem oneLine_positional (x : Decimal) : OneLine (x.positional 0) := by
  have hdigits : OneLine (String.ofList (Nat.toDigits 10 x.digits)) :=
    oneLine_ofList.mpr (newline_notMem_toDigits 10 x.digits)
  have hpoint : OneLine "." ∧ OneLine "" := by decide
  unfold Decimal.positional
  dsimp only
  split
  · simp only [oneLine_append, if_pos]
    exact ⟨⟨hdigits, oneLine_zeros _⟩, hpoint.2⟩
  · have hpadded := oneLine_append.mpr ⟨oneLine_zeros ((-x.exponent).toNat + 1 -
      (String.ofList (Nat.toDigits 10 x.digits)).length), hdigits⟩
    simp only [oneLine_append, oneLine_ofList]
    exact ⟨⟨fun h => hpadded (List.mem_of_mem_take h), hpoint.1⟩,
      fun h => hpadded (List.mem_of_mem_drop h)⟩

theorem oneLine_signed (x : Binary64) {text : String} (h : OneLine text) : OneLine (x.signed text) := by
  unfold signed
  split
  · exact oneLine_append.mpr ⟨by decide, h⟩
  · exact h

theorem oneLine_display (x : Binary64) : OneLine x.display := by
  unfold display
  split
  · decide
  split
  · exact x.oneLine_signed (by decide)
  split
  · exact x.oneLine_signed (by decide)
  · exact x.oneLine_signed (oneLine_positional _)

end Binary64

theorem Constant.oneLine_display (c : Constant) : OneLine c.display := by
  cases c with
  | null => decide
  | bool b => exact oneLine_truth b
  | char c => exact oneLine_quoteChar c
  | int n => exact oneLine_int n.toInt
  | uint n => exact oneLine_nat n.toNat
  | float x => exact x.oneLine_display
  | string s => exact oneLine_quoteString s

/-! Handles, places and names. -/

namespace Handle

variable {c : Category} (h : Handle c)

theorem oneLine_display : OneLine h.display := by
  have hword : OneLine c.word := by cases c <;> exact (word_ofList rfl).oneLine
  simp only [display, oneLine_append]
  exact ⟨⟨hword, by decide⟩, oneLine_nat _⟩

theorem oneLine_debug : OneLine h.debug :=
  oneLine_applied (by cases c <;> exact (word_ofList rfl).oneLine) (oneLine_nat _)

theorem oneLine_optional_debug (h : Option (Handle c)) : OneLine (optional (h.map debug)) := by
  refine oneLine_optional fun s hs => ?_
  obtain ⟨h, -, rfl⟩ := Option.map_eq_some_iff.mp hs
  exact h.oneLine_debug

end Handle

theorem Locus.oneLine_display (l : Locus) : OneLine l.display := by
  have hmarks : OneLine "@" ∧ OneLine ".." := by decide
  simp only [Locus.display, Span.display, oneLine_append]
  exact ⟨⟨l.file.oneLine_display, hmarks.1⟩, ⟨oneLine_nat _, hmarks.2⟩, oneLine_nat _⟩

theorem Symbol.oneLine_debug (s : Symbol) : OneLine s.debug := oneLine_applied (by decide) (oneLine_nat _)

theorem Kind.word_name (k : Kind) : Word k.name := by
  cases k <;> exact word_ofList rfl

theorem Kind.name_ne_empty (k : Kind) : k.name ≠ "" := by
  have htable : ∀ k ∈ all, k.name ≠ "" := by decide +kernel
  exact htable k (mem_all k)

theorem Kind.ofName?_name (k : Kind) : Named.ofName? k.name = some k := by
  have htable : ∀ k ∈ all, Named.ofName? k.name = some k := by decide +kernel
  exact htable k (mem_all k)

theorem Kind.name_injective {k k' : Kind} (h : k.name = k'.name) : k = k' := by
  have hfound := k.ofName?_name
  rw [h, k'.ofName?_name] at hfound
  exact (Option.some.inj hfound).symm

/-- The names of attributes and slots. -/
theorem Shape.word_of_mem (s : Shape) :
    ∀ name ∈ s.attributes.map (·.1) ++ s.slots.map (·.name), Word name := by
  cases s <;> repeat first
    | exact forall_word_nil
    | refine forall_word_cons rfl ?_

/-! Attributes. -/

theorem Conversion.oneLine_debug (c : Conversion) : OneLine c.debug := by
  refine oneLine_record (by decide) ?_
  simp only [List.forall_mem_cons]
  exact ⟨⟨by decide, oneLine_truth c.isDefined⟩, ⟨by decide, oneLine_truth c.isIdentity⟩,
    ⟨by decide, oneLine_truth c.isNumeric⟩, ⟨by decide, oneLine_truth c.isReference⟩,
    ⟨by decide, oneLine_truth c.isNullable⟩, ⟨by decide, oneLine_truth c.isImplicit⟩,
    ⟨by decide, Handle.oneLine_optional_debug c.method⟩,
    ⟨by decide, Handle.oneLine_optional_debug c.constrainedTo⟩, by simp⟩

theorem ForEachInfo.oneLine_debug (i : ForEachInfo) : OneLine i.debug := by
  refine oneLine_record (by decide) ?_
  simp only [List.forall_mem_cons]
  exact ⟨⟨by decide, i.elementType.oneLine_debug⟩, ⟨by decide, i.getEnumeratorMethod.oneLine_debug⟩,
    ⟨by decide, i.moveNextMethod.oneLine_debug⟩, ⟨by decide, i.currentProperty.oneLine_debug⟩,
    ⟨by decide, Handle.oneLine_optional_debug i.disposeMethod⟩,
    ⟨by decide, i.currentConversion.oneLine_debug⟩, ⟨by decide, i.elementConversion.oneLine_debug⟩,
    ⟨by decide, oneLine_truth i.knownToImplementDisposable⟩, by simp⟩

theorem AttributeValue.oneLine_debug (v : AttributeValue) : OneLine v.debug := by
  cases v with
  | flag b => exact oneLine_truth b
  | handle c h => exact h.oneLine_debug
  | optionalHandle c h => exact Handle.oneLine_optional_debug h
  | handles c hs =>
    refine oneLine_listed fun s hs => ?_
    obtain ⟨h, -, rfl⟩ := List.mem_map.mp hs
    exact h.oneLine_debug
  | text s => exact oneLine_quoteString s
  | symbol s => exact s.oneLine_debug
  | optionalSymbols ss =>
    refine oneLine_listed fun text htext => ?_
    obtain ⟨s, -, rfl⟩ := List.mem_map.mp htext
    refine oneLine_optional fun text htext => ?_
    obtain ⟨s, -, rfl⟩ := Option.map_eq_some_iff.mp htext
    exact s.oneLine_debug
  | unaryOperator o => cases o <;> exact (word_ofList rfl).oneLine
  | binaryOperator o => cases o <;> exact (word_ofList rfl).oneLine
  | branchKind k => cases k <;> exact (word_ofList rfl).oneLine
  | argumentKind k => cases k <;> exact (word_ofList rfl).oneLine
  | refKinds ks =>
    refine oneLine_listed fun s hs => ?_
    obtain ⟨k, -, rfl⟩ := List.mem_map.mp hs
    cases k <;> exact (word_ofList rfl).oneLine
  | instanceReferenceKind k => cases k <;> exact (word_ofList rfl).oneLine
  | placeholderKind k => cases k <;> exact (word_ofList rfl).oneLine
  | handlerPlaceholder p =>
    cases p with
    | callsiteArgument position =>
      have hmarks : OneLine "CallsiteArgument(" ∧ OneLine ")" := by decide
      exact oneLine_append.mpr ⟨oneLine_append.mpr ⟨hmarks.1, oneLine_nat _⟩, hmarks.2⟩
    | callsiteReceiver => decide
    | trailingValidityArgument => decide
  | conversion c => exact c.oneLine_debug
  | forEachInfo i =>
    refine oneLine_optional fun s hs => ?_
    obtain ⟨i, -, rfl⟩ := Option.map_eq_some_iff.mp hs
    exact i.oneLine_debug
  | function f =>
    simp only [AttributeValue.debug, FunctionRef.debug, oneLine_append]
    exact ⟨⟨f.kind.word_name.oneLine, by decide⟩, f.locus.oneLine_display⟩

namespace Session

/-! The texts of operations and slots. -/

theorem oneLine_factsText (kind : Kind) (h : Header) {attributes : List (String × String)}
    (hattributes : ∀ a ∈ attributes, OneLine a.1 ∧ OneLine a.2) :
    OneLine (factsText kind h attributes) := by
  have htype : OneLine (h.resultType.elim "" fun t => " type=" ++ t.display) := by
    cases h.resultType with
    | none => decide
    | some t => exact oneLine_append.mpr ⟨by decide, t.oneLine_display⟩
  have hconstant : OneLine (h.constant.elim "" fun c => " constant=" ++ c.display) := by
    cases h.constant with
    | none => decide
    | some c => exact oneLine_append.mpr ⟨by decide, c.oneLine_display⟩
  have himplicit : OneLine (if h.isImplicit then " implicit" else "") := by
    cases h.isImplicit <;> decide
  have hplain : OneLine (String.join (attributes.map fun a => " " ++ a.1 ++ "=" ++ a.2)) := by
    have hmarks : OneLine " " ∧ OneLine "=" := by decide
    refine oneLine_join fun s hs => ?_
    obtain ⟨a, ha, rfl⟩ := List.mem_map.mp hs
    simp only [oneLine_append]
    exact ⟨⟨⟨hmarks.1, (hattributes a ha).1⟩, hmarks.2⟩, (hattributes a ha).2⟩
  simp only [factsText, oneLine_append]
  exact ⟨⟨⟨⟨⟨⟨kind.word_name.oneLine, htype⟩, hconstant⟩, himplicit⟩, by decide⟩, h.locus.oneLine_display⟩,
    hplain⟩

theorem oneLine_nodeText (node : Node) : OneLine (nodeText node) := by
  refine oneLine_factsText node.kind node.header fun a ha => ?_
  obtain ⟨⟨name, v⟩, hmem, rfl⟩ := List.mem_map.mp ha
  have hshape : (name, v.type) ∈ node.payload.shape.attributes :=
    node.payload.typed ▸ List.mem_map_of_mem (f := fun a => (a.1, a.2.type)) hmem
  have hname : name ∈ node.payload.shape.attributes.map (·.1) := List.mem_map_of_mem hshape
  exact ⟨(Shape.word_of_mem _ name (List.mem_append_left _ hname)).oneLine, v.oneLine_debug⟩

/-- Empty, or set off by a blank. -/
def SetOff (s : String) : Prop := s = "" ∨ s.toList.head? = some ' '

theorem setOff_append_of_head? {a : String} (h : a.toList.head? = some ' ') (b : String) :
    SetOff (a ++ b) := by
  right
  rw [String.toList_append, List.head?_append, h]
  rfl

theorem SetOff.append {a b : String} (ha : SetOff a) (hb : SetOff b) : SetOff (a ++ b) := by
  rcases ha with rfl | ha
  · rwa [String.empty_append]
  · exact setOff_append_of_head? ha b

/-- A word ends where what is set off begins. -/
theorem SetOff.takeWhile_append {s : String} (h : SetOff s) {word : List Char} (hword : ' ' ∉ word) :
    (word ++ s.toList).takeWhile (· ≠ ' ') = word := by
  have hend : s.toList.takeWhile (· ≠ ' ') = [] := by
    rcases h with rfl | h
    · rfl
    · obtain ⟨rest, hrest⟩ := List.head?_eq_some_iff.mp h
      rw [hrest, List.takeWhile_cons_of_neg (by simp)]
  rw [List.takeWhile_append_of_pos, hend, List.append_nil]
  intro c hc
  exact decide_eq_true fun heq => hword (heq ▸ hc)

/-- The kind is the first word of the text. -/
theorem takeWhile_nodeText (node : Node) :
    (nodeText node).toList.takeWhile (· ≠ ' ') = node.kind.name.toList := by
  have htype : SetOff (node.header.resultType.elim "" fun t => " type=" ++ t.display) := by
    cases node.header.resultType with
    | none => exact .inl rfl
    | some t => exact setOff_append_of_head? (by decide) _
  have hconstant : SetOff (node.header.constant.elim "" fun c => " constant=" ++ c.display) := by
    cases node.header.constant with
    | none => exact .inl rfl
    | some c => exact setOff_append_of_head? (by decide) _
  have himplicit : SetOff (if node.header.isImplicit then " implicit" else "") := by
    cases node.header.isImplicit with
    | false => exact .inl rfl
    | true => exact .inr (by decide)
  have hrest := htype.append (hconstant.append (himplicit.append
    (setOff_append_of_head? (a := " @ ") (by decide) (node.header.locus.display ++ String.join
      ((node.payload.attributes.map fun a => (a.1, a.2.debug)).map fun a => " " ++ a.1 ++ "=" ++ a.2)))))
  have htext := hrest.takeWhile_append (node.kind.word_name.notMem (by decide))
  rw [← String.toList_append] at htext
  simpa only [nodeText, factsText, String.append_assoc] using htext

theorem kind_eq_of_nodeText {node node' : Node} (h : nodeText node = nodeText node') :
    node.kind = node'.kind := by
  refine Kind.name_injective (String.toList_inj.mp ?_)
  rw [← takeWhile_nodeText, h, takeWhile_nodeText]

/-- A text that stands at its place in a line and stays on it. -/
structure Legible (text : String) : Prop where
  oneLine : OneLine text
  flush : text.toList.head? ≠ some ' '

theorem legible_nodeText (node : Node) : Legible (nodeText node) := by
  refine ⟨oneLine_nodeText node, fun h => ?_⟩
  obtain ⟨rest, hrest⟩ := List.head?_eq_some_iff.mp h
  have hname := takeWhile_nodeText node
  rw [hrest, List.takeWhile_cons_of_neg (by simp)] at hname
  exact node.kind.name_ne_empty (String.toList_eq_nil_iff.mp hname.symm)

/-- The name of a slot is all that stands before the colon. -/
theorem takeWhile_slotText {name : String} (h : Word name) (isEmpty : Bool) :
    (slotText name isEmpty).toList.takeWhile (· ≠ ':') = name.toList := by
  have hend : (if isEmpty then ": <empty>" else ":").toList.takeWhile (· ≠ ':') = [] := by
    cases isEmpty <;> decide
  have hname : ':' ∉ name.toList := h.notMem (by decide)
  rw [slotText, String.toList_append, List.takeWhile_append_of_pos, hend, List.append_nil]
  intro c hc
  exact decide_eq_true fun heq => hname (heq ▸ hc)

theorem legible_slotText {name : String} (h : Word name) (isEmpty : Bool) :
    Legible (slotText name isEmpty) := by
  have hend : OneLine (if isEmpty then ": <empty>" else ":") ∧
      (if isEmpty then ": <empty>" else ":").toList.head? ≠ some ' ' := by
    cases isEmpty <;> decide
  refine ⟨oneLine_append.mpr ⟨h.oneLine, hend.1⟩, ?_⟩
  rw [slotText, String.toList_append, List.head?_append]
  cases hname : name.toList.head? with
  | none => exact hend.2
  | some c =>
    rintro ⟨⟩
    exact h.notMem (by decide) (List.mem_of_head? hname)

/-- The names of the slots of an operation are those of its shape. -/
theorem word_of_mem_namedChildCells {node : Node} {slot : String × CellId}
    (h : slot ∈ node.namedChildCells) : Word slot.1 := by
  obtain ⟨i, -, hi⟩ := List.mem_filterMap.mp h
  obtain ⟨field, hfield, hi⟩ := Option.bind_eq_some_iff.mp hi
  obtain ⟨c, -, hi⟩ := Option.bind_eq_some_iff.mp hi
  cases hi
  have hname : field.name ∈ node.shape.slots.map (·.name) :=
    List.mem_map_of_mem (List.mem_of_getElem? hfield)
  exact node.shape.word_of_mem field.name (List.mem_append_right _ hname)

end Session
end BoundTree
