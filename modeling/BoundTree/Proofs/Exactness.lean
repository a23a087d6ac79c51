import BoundTree.Proofs.Forms

/-!
The types of the library and their forms. Main statement, for each type: what is read as a value are the
spellings of what is written for it, which is one of them. A double has to be finite for that.
-/
namespace BoundTree

open Form

namespace Json

theorem between?_eq_some {low high n : Int} {j : Json} :
    j.between? low high = some n ↔ j = .int n ∧ low ≤ n ∧ n ≤ high := by
  cases j with
  | int m =>
    rw [between?, Option.ite_none_right_eq_some, Option.some_inj, Json.int.injEq]
    constructor
    · rintro ⟨h, rfl⟩
      exact ⟨rfl, h⟩
    · rintro ⟨rfl, h⟩
      exact ⟨h, rfl⟩
  | _ => simp [between?]

end Json

namespace Wire

theorem variant?_eq_some {j : Json} {name : String} {value : Json} : variant? j = some (name, value) ↔
    j = .str name ∧ value = .null ∨ j = .obj [(name, value)] := by
  unfold variant?
  split
  · simp [eq_comm]
  · simp
  · rename_i hstr hobj
    constructor
    · intro h
      cases h
    · rintro (⟨rfl, -⟩ | rfl)
      · exact absurd rfl (hstr name)
      · exact absurd rfl (hobj name value)

theorem spells_name {cases : List (String × Option Form)} {j : Json} {name : String}
    (hvariant : variant? j = some (name, .null)) (hname : cases.lookup name = some none) :
    (Form.oneOf cases).Spells j (.str name) :=
  spells_oneOf_str.mpr ⟨hname, (variant?_eq_some.mp hvariant).imp_left And.left⟩

/-- A name alone has no value. -/
theorem spells_carried {cases : List (String × Option Form)} {j v c : Json} {name : String} {f : Form}
    (hvariant : variant? j = some (name, v)) (hname : cases.lookup name = some (some f))
    (hrequired : f.isOptional = false) (h : f.Spells v c) : (Form.oneOf cases).Spells j (.obj [(name, c)]) := by
  rcases variant?_eq_some.mp hvariant with ⟨-, rfl⟩ | rfl
  · exact absurd rfl (h.ne_null hrequired)
  · exact .carrying hname h

/-- What is read as a value are the spellings of what is written for it, which is one of them. -/
structure Exact {α : Type} [Wire α] (form : Form) (a : α) : Prop where
  reads_iff : ∀ j, read? j = some a ↔ form.Spells j (write a)
  selfSpelled : form.Spells (write a) (write a)

theorem Exact.read_write {α : Type} [Wire α] {form : Form} {a : α} (h : Exact form a) :
    read? (write a) = some a := (h.reads_iff _).mpr h.selfSpelled

/-- A spelling is the spelling of one value. -/
theorem Exact.unique {α : Type} [Wire α] {form : Form} {a b : α} (h : Exact form b) {j : Json}
    (hread : read? j = some a) (hspells : form.Spells j (write b)) : a = b := by
  have hb := (h.reads_iff j).mpr hspells
  rwa [hread, Option.some_inj] at hb

/-! Records. -/

/-- A record is exact if the list of what its fields hold is. -/
theorem exact_record {fields : List (String × Form)} (hnodup : (fields.map (·.1)).Nodup) {α : Type} [Wire α]
    {ofItems : List Json → Option α} (hread : ∀ j, read? j = (record? (fields.map (·.1)) j).bind ofItems)
    {a : α} {written : List (String × Json)} (hwrite : write a = .obj written)
    (hitems : ∀ items, ofItems items = some a ↔ SpellsItems fields items written)
    (hself : ofItems (written.map (·.2)) = some a) : Exact (.record fields) a where
  reads_iff j := by
    rw [hread, Option.bind_eq_some_iff, hwrite, spells_record]
    exact exists_congr fun items => and_congr_right fun _ => hitems items
  selfSpelled := by
    rw [hwrite]
    exact ((hitems _).mp hself).record_self hnodup

/-! The parts that records have. -/

theorem exact_bool (b : Bool) : Exact .truth b where
  reads_iff j := by
    constructor
    · intro h
      cases j with
      | bool b' =>
        cases h
        exact .truth b
      | _ => cases h
    · intro h
      cases h
      rfl
  selfSpelled := .truth b

/-- What is kept as an unsigned integer is read from the whole numbers below its size. -/
theorem map_between?_eq_some {α : Type} {size : Nat} {high : Int} (hhigh : high + 1 = size) {ofNat : Nat → α}
    {toNat : α → Nat} (htoNat : ∀ n < size, toNat (ofNat n) = n) (hofNat : ∀ a, ofNat (toNat a) = a) {j : Json}
    {a : α} : ((j.between? 0 high).map fun n => ofNat n.toNat) = some a ↔
      (Form.whole 0 high).Spells j (.int (toNat a)) := by
  rw [spells_whole, ← Json.between?_eq_some, Option.map_eq_some_iff]
  constructor
  · rintro ⟨n, hn, rfl⟩
    obtain ⟨-, hlow, hhigh'⟩ := Json.between?_eq_some.mp hn
    rw [hn, htoNat _ (by omega), Int.toNat_of_nonneg hlow]
  · exact fun h => ⟨toNat a, h, by rw [Int.toNat_natCast, hofNat]⟩

/-- Unsigned integers of 32 bits. -/
def word : Form := .whole 0 (Int.pow 2 32 - 1)

theorem exact_uint32 (n : UInt32) : Exact word n where
  reads_iff j := map_between?_eq_some rfl (fun _ => UInt32.toNat_ofNat_of_lt') fun _ => UInt32.ofNat_toNat
  selfSpelled := by
    have hpow : Int.pow 2 32 = UInt32.size := rfl
    have hlt : n.toNat < UInt32.size := n.toNat_lt
    exact .whole (Int.natCast_nonneg _) (by omega)

theorem exact_handle {c : Category} (h : Handle c) : Exact word h where
  reads_iff j := by
    have hread : (read? j : Option (Handle c)) = (read? j : Option UInt32).map Handle.mk := rfl
    have hwrite : write h = write h.index := rfl
    rw [hread, hwrite, ← (exact_uint32 h.index).reads_iff, Option.map_eq_some_iff]
    constructor
    · rintro ⟨n, hn, rfl⟩
      exact hn
    · exact fun hn => ⟨h.index, hn, rfl⟩
  selfSpelled := (exact_uint32 h.index).selfSpelled

theorem exact_optional {c : Category} (h : Option (Handle c)) : Exact (.optional word) h where
  reads_iff j := by
    have hread : j.isNull = false →
        (read? j : Option (Option (Handle c))) = (read? j : Option (Handle c)).map some := by
      intro hj
      cases j with
      | null => cases hj
      | _ => rfl
    cases hj : j.isNull with
    | true =>
      obtain rfl : j = .null := by
        cases j with
        | null => rfl
        | _ => cases hj
      cases h with
      | none => exact ⟨fun _ => .absent, fun _ => rfl⟩
      | some h =>
        constructor
        · intro h
          cases h
        · intro h
          rcases spells_optional.mp h with ⟨-, hnull⟩ | ⟨hnull, -⟩
          · cases hnull
          · cases hnull
    | false =>
      rw [hread hj, Option.map_eq_some_iff]
      constructor
      · rintro ⟨h', hh', rfl⟩
        exact .present hj (((exact_handle h').reads_iff j).mp hh')
      · intro hspells
        cases h with
        | none =>
          cases hspells with
          | absent => cases hj
          | present hj hspells => cases hspells
        | some h =>
          rcases spells_optional.mp hspells with ⟨rfl, -⟩ | ⟨-, hspells⟩
          · cases hj
          · exact ⟨h, ((exact_handle h).reads_iff j).mpr hspells, rfl⟩
  selfSpelled := by
    cases h with
    | none => exact .absent
    | some h => exact .present rfl (exact_handle h).selfSpelled

/-! Named values. -/

/-- One of the names of a type. -/
def named (α : Type) [Named α] : Form := .oneOf ((Named.all : List α).map fun a => (Named.name a, none))

theorem lookup_map_none {α : Type} (name : α → String) {l : List α} {a : α} (ha : a ∈ l) :
    (l.map fun a => (name a, (none : Option Form))).lookup (name a) = some none := by
  induction l with
  | nil => cases ha
  | cons b l ih =>
    rw [List.map_cons, List.lookup_cons]
    split
    · rfl
    · rename_i hne
      refine ih ((List.mem_cons.mp ha).resolve_left ?_)
      rintro rfl
      exact absurd hne (by simp)

theorem exact_named {α : Type} [Named α] {a : α} (hmem : a ∈ (Named.all : List α))
    (hname : Named.ofName? (Named.name a) = some a) : Exact (named α) a where
  reads_iff j := by
    have hwrite : write a = .str (Named.name a) := rfl
    rw [hwrite, named, spells_oneOf_str]
    constructor
    · intro h
      have hread : readNamed? j = some a := h
      unfold readNamed? at hread
      split at hread
      · rename_i name hvariant
        obtain rfl := Named.name_of_ofName? hread
        exact spells_oneOf_str.mp (spells_name hvariant (lookup_map_none _ hmem))
      · cases hread
    · rintro ⟨-, rfl | rfl⟩
      · exact hname
      · exact hname
  selfSpelled := .named (lookup_map_none _ hmem)

/-! The records. -/

def conversionForm : Form :=
  .record [("exists", .truth), ("is_identity", .truth), ("is_numeric", .truth), ("is_reference", .truth),
    ("is_nullable", .truth), ("is_implicit", .truth), ("method", .optional word),
    ("constrained_to_type", .optional word)]

theorem exact_conversion (c : Conversion) : Exact conversionForm c := by
  refine exact_record (by decide) (fun _ => rfl) rfl (fun items => ?_) ?_
  · simp only [spellsItems_cons, spellsItems_nil, ← (exact_bool _).reads_iff, ← (exact_optional _).reads_iff]
    constructor
    · intro h
      split at h
      · simp only [Option.bind_eq_bind, Option.bind_eq_some_iff, Option.pure_def, Option.some_inj] at h
        obtain ⟨_, h₁, _, h₂, _, h₃, _, h₄, _, h₅, _, h₆, _, h₇, _, h₈, rfl⟩ := h
        exact ⟨_, _, rfl, h₁, _, _, rfl, h₂, _, _, rfl, h₃, _, _, rfl, h₄, _, _, rfl, h₅, _, _, rfl, h₆,
          _, _, rfl, h₇, _, _, rfl, h₈, rfl⟩
      · cases h
    · rintro ⟨_, _, rfl, h₁, _, _, rfl, h₂, _, _, rfl, h₃, _, _, rfl, h₄, _, _, rfl, h₅, _, _, rfl, h₆,
        _, _, rfl, h₇, _, _, rfl, h₈, rfl⟩
      simp [h₁, h₂, h₃, h₄, h₅, h₆, h₇, h₈]
  · simp [(exact_bool _).read_write, (exact_optional _).read_write]

def forEachForm : Form :=
  .record [("element_type", word), ("get_enumerator_method", word), ("move_next_method", word),
    ("current_property", word), ("dispose_method", .optional word), ("current_conversion", conversionForm),
    ("element_conversion", conversionForm), ("known_to_implement_disposable", .truth)]

theorem exact_forEachInfo (i : ForEachInfo) : Exact forEachForm i := by
  refine exact_record (by decide) (fun _ => rfl) rfl (fun items => ?_) ?_
  · simp only [spellsItems_cons, spellsItems_nil, ← (exact_bool _).reads_iff, ← (exact_optional _).reads_iff,
      ← (exact_handle _).reads_iff, ← (exact_conversion _).reads_iff]
    constructor
    · intro h
      split at h
      · simp only [Option.bind_eq_bind, Option.bind_eq_some_iff, Option.pure_def, Option.some_inj] at h
        obtain ⟨_, h₁, _, h₂, _, h₃, _, h₄, _, h₅, _, h₆, _, h₇, _, h₈, rfl⟩ := h
        exact ⟨_, _, rfl, h₁, _, _, rfl, h₂, _, _, rfl, h₃, _, _, rfl, h₄, _, _, rfl, h₅, _, _, rfl, h₆,
          _, _, rfl, h₇, _, _, rfl, h₈, rfl⟩
      · cases h
    · rintro ⟨_, _, rfl, h₁, _, _, rfl, h₂, _, _, rfl, h₃, _, _, rfl, h₄, _, _, rfl, h₅, _, _, rfl, h₆,
        _, _, rfl, h₇, _, _, rfl, h₈, rfl⟩
      simp [h₁, h₂, h₃, h₄, h₅, h₆, h₇, h₈]
  · simp [(exact_bool _).read_write, (exact_optional _).read_write, (exact_handle _).read_write,
      (exact_conversion _).read_write]

def spanForm : Form := .record [("start", word), ("end", word)]

theorem exact_span (s : Span) : Exact spanForm s := by
  refine exact_record (by decide) (fun _ => rfl) rfl (fun items => ?_) ?_
  · simp only [spellsItems_cons, spellsItems_nil, ← (exact_uint32 _).reads_iff]
    constructor
    · intro h
      split at h
      · simp only [Option.bind_eq_bind, Option.bind_eq_some_iff, Option.pure_def, Option.some_inj] at h
        obtain ⟨_, hstart, _, hstop, rfl⟩ := h
        exact ⟨_, _, rfl, hstart, _, _, rfl, hstop, rfl⟩
      · cases h
    · rintro ⟨_, _, rfl, hstart, _, _, rfl, hstop, rfl⟩
      simp [hstart, hstop]
  · simp [(exact_uint32 _).read_write]

def locusForm : Form := .record [("file", word), ("span", spanForm)]

theorem exact_locus (l : Locus) : Exact locusForm l := by
  refine exact_record (by decide) (fun _ => rfl) rfl (fun items => ?_) ?_
  · simp only [spellsItems_cons, spellsItems_nil, ← (exact_handle _).reads_iff, ← (exact_span _).reads_iff]
    constructor
    · intro h
      split at h
      · simp only [Option.bind_eq_bind, Option.bind_eq_some_iff, Option.pure_def, Option.some_inj] at h
        obtain ⟨_, hfile, _, hspan, rfl⟩ := h
        exact ⟨_, _, rfl, hfile, _, _, rfl, hspan, rfl⟩
      · cases h
    · rintro ⟨_, _, rfl, hfile, _, _, rfl, hspan, rfl⟩
      simp [hfile, hspan]
  · simp [(exact_handle _).read_write, (exact_span _).read_write]

/-! Constructors with a value. -/

/-- The value of a constructor is read where its spelling stands. -/
theorem read_of_spells {α β : Type} [Wire α] (part? : Json → Option β) (construct : β → α) {name : String}
    {cases : List (String × Option Form)} {f : Form} {j c : Json} {b : β}
    (hread : ∀ v, read? (.obj [(name, v)]) = (part? v).bind fun b => some (construct b))
    (hname : cases.lookup name = some (some f)) (hpart : ∀ v, f.Spells v c → part? v = some b)
    (h : (Form.oneOf cases).Spells j (.obj [(name, c)])) : read? j = some (construct b) := by
  obtain ⟨f', v, hname', rfl, hv⟩ := spells_oneOf_obj.mp h
  rw [hname] at hname'
  cases hname'
  rw [hread, hpart v hv, Option.bind_some]

def handlerPlaceholderForm : Form :=
  .oneOf [("CallsiteArgument", some word), ("CallsiteReceiver", none), ("TrailingValidityArgument", none)]

theorem exact_handlerPlaceholder (p : HandlerPlaceholder) : Exact handlerPlaceholderForm p where
  reads_iff j := by
    constructor
    · intro h
      obtain ⟨named, hvariant, h⟩ := Option.bind_eq_some_iff.mp h
      split at h
      · obtain ⟨n, hn, h⟩ := Option.bind_eq_some_iff.mp h
        cases h
        exact spells_carried hvariant rfl rfl (((exact_uint32 n).reads_iff _).mp hn)
      · cases h
        exact spells_name hvariant rfl
      · cases h
        exact spells_name hvariant rfl
      · cases h
    · intro h
      cases p with
      | callsiteArgument n =>
        have hpart (v : Json) : word.Spells v (write n) → read? v = some n := ((exact_uint32 n).reads_iff v).mpr
        exact read_of_spells read? HandlerPlaceholder.callsiteArgument (fun _ => rfl) rfl hpart h
      | callsiteReceiver | trailingValidityArgument =>
        obtain ⟨-, rfl | rfl⟩ := spells_oneOf_str.mp h
        · rfl
        · rfl
  selfSpelled := by
    cases p with
    | callsiteArgument n => exact .carrying rfl (exact_uint32 n).selfSpelled
    | callsiteReceiver => exact .named rfl
    | trailingValidityArgument => exact .named rfl

/-! Constants. -/

theorem readChar?_eq_some {j : Json} {c : Char} :
    readChar? j = some c ↔ Form.character.Spells j (.str (String.ofList [c])) := by
  rw [spells_character]
  constructor
  · intro h
    cases j with
    | str s =>
      unfold readChar? at h
      dsimp only at h
      split at h
      · rename_i hs
        cases h
        obtain rfl : s = String.ofList [c] := by rw [← hs, String.ofList_toList]
        exact ⟨c, rfl, rfl⟩
      · cases h
    | _ => cases h
  · rintro ⟨ch, rfl, h⟩
    rw [Json.str.injEq, String.ofList_inj] at h
    cases h
    unfold readChar?
    dsimp only
    rw [String.toList_ofList]

/-- Signed integers of 64 bits. -/
def signed : Form := .whole (-Int.pow 2 63) (Int.pow 2 63 - 1)

theorem int64?_eq_some {j : Json} {n : Int} : j.int64? = some n ↔ signed.Spells j (.int n) := by
  rw [signed, spells_whole, ← Json.between?_eq_some]
  rfl

theorem toInt_of_int64? {j : Json} {n : Int} (h : j.int64? = some n) : (Int64.ofInt n).toInt = n := by
  obtain ⟨-, hlow, hhigh⟩ := Json.between?_eq_some.mp h
  exact Int64.toInt_ofInt_of_le hlow (Int.lt_of_le_sub_one hhigh)

/-- Unsigned integers of 64 bits. -/
def unsigned : Form := .whole 0 (Int.pow 2 64 - 1)

theorem uint64?_eq_some {j : Json} {n : UInt64} : j.uint64? = some n ↔ unsigned.Spells j (.int n.toNat) :=
  map_between?_eq_some rfl (fun _ => UInt64.toNat_ofNat_of_lt') fun _ => UInt64.ofNat_toNat

theorem str?_eq_some {j : Json} {s : String} : j.str? = some s ↔ Form.text.Spells j (.str s) := by
  constructor
  · intro h
    cases j with
    | str s' =>
      cases h
      exact .text s
    | _ => cases h
  · intro h
    cases h
    rfl

theorem readFloat?_eq_some {j : Json} {x : Binary64} :
    readFloat? j = some x ↔ j = .float x ∨ ∃ n, j = .int n ∧ x = Binary64.ofInt n := by
  cases j <;> simp [readFloat?, eq_comm]

def constantForm : Form :=
  .oneOf [("Null", none), ("Bool", some .truth), ("Char", some .character),
    ("Int", some signed), ("UInt", some unsigned), ("Float", some .number), ("String", some .text)]

theorem spells_of_read_constant {j : Json} {c : Constant} (h : read? j = some c) :
    constantForm.Spells j (write c) := by
  obtain ⟨named, hvariant, h⟩ := Option.bind_eq_some_iff.mp h
  split at h
  · cases h
    exact spells_name hvariant rfl
  · obtain ⟨b, hb, h⟩ := Option.bind_eq_some_iff.mp h
    cases h
    exact spells_carried hvariant rfl rfl (((exact_bool b).reads_iff _).mp hb)
  · obtain ⟨c, hc, h⟩ := Option.bind_eq_some_iff.mp h
    cases h
    exact spells_carried hvariant rfl rfl (readChar?_eq_some.mp hc)
  · obtain ⟨n, hn, h⟩ := Option.bind_eq_some_iff.mp h
    cases h
    refine spells_carried hvariant rfl rfl ?_
    rw [toInt_of_int64? hn]
    exact int64?_eq_some.mp hn
  · obtain ⟨n, hn, h⟩ := Option.bind_eq_some_iff.mp h
    cases h
    exact spells_carried hvariant rfl rfl (uint64?_eq_some.mp hn)
  · obtain ⟨x, hx, h⟩ := Option.bind_eq_some_iff.mp h
    cases h
    exact spells_carried hvariant rfl rfl (spells_number.mpr ⟨x, readFloat?_eq_some.mp hx, rfl⟩)
  · obtain ⟨s, hs, h⟩ := Option.bind_eq_some_iff.mp h
    cases h
    exact spells_carried hvariant rfl rfl (str?_eq_some.mp hs)
  · cases h

theorem eq_of_numeral_eq_float {x y : Binary64} (h : numeral x = .float y) : x = y := by
  unfold numeral at h
  split at h
  · cases h
  · cases h
    rfl

/-- A double that is not finite is written as null. -/
theorem exact_constant {c : Constant} (hfinite : ∀ x, c = .float x → numeral x = .float x) :
    Exact constantForm c where
  reads_iff j := by
    refine ⟨spells_of_read_constant, fun hspells => ?_⟩
    cases c with
    | null =>
      obtain ⟨-, rfl | rfl⟩ := spells_oneOf_str.mp hspells
      · rfl
      · rfl
    | bool b =>
      have hpart (v : Json) : Form.truth.Spells v (write b) → v.bool? = some b := ((exact_bool b).reads_iff v).mpr
      exact read_of_spells Json.bool? Constant.bool (fun _ => rfl) rfl hpart hspells
    | char ch =>
      exact read_of_spells readChar? Constant.char (fun _ => rfl) rfl (fun _ => readChar?_eq_some.mpr) hspells
    | int n =>
      have hread := read_of_spells Json.int64? (fun m => Constant.int (Int64.ofInt m)) (fun _ => rfl) rfl
        (fun _ => int64?_eq_some.mpr) hspells
      rwa [Int64.ofInt_toInt] at hread
    | uint n =>
      exact read_of_spells Json.uint64? Constant.uint (fun _ => rfl) rfl (fun _ => uint64?_eq_some.mpr) hspells
    | float x =>
      have hpart (v : Json) (h : Form.number.Spells v (numeral x)) : readFloat? v = some x := by
        obtain ⟨y, hy, hnumeral⟩ := spells_number.mp h
        rw [hfinite x rfl] at hnumeral
        obtain rfl : y = x := eq_of_numeral_eq_float hnumeral.symm
        exact readFloat?_eq_some.mpr hy
      exact read_of_spells readFloat? Constant.float (fun _ => rfl) rfl hpart hspells
    | string s =>
      exact read_of_spells Json.str? Constant.string (fun _ => rfl) rfl (fun _ => str?_eq_some.mpr) hspells
  selfSpelled := by
    cases c with
    | null => exact .named rfl
    | bool b => exact .carrying rfl (.truth b)
    | char ch => exact .carrying rfl (.character ch)
    | int n => exact .carrying rfl (.whole n.le_toInt (Int.le_sub_one_of_lt n.toInt_lt))
    | uint n =>
      have hpow : Int.pow 2 64 = UInt64.size := rfl
      have hlt : n.toNat < UInt64.size := n.toNat_lt
      exact .carrying rfl (.whole (Int.natCast_nonneg _) (by omega))
    | float x =>
      have hwrite : write (Constant.float x) = .obj [("Float", .float x)] := by
        rw [← hfinite x rfl]
        rfl
      have hspelled : Form.number.Spells (.float x) (.float x) := by
        have h := Spells.number x
        rwa [hfinite x rfl] at h
      rw [hwrite]
      exact .carrying rfl hspelled
    | string s => exact .carrying rfl (.text s)

end Wire
end BoundTree
