import Mathlib
import BoundTree.Proofs.Routing

/-!
Methods that are told apart. The words of a name in letters and digits can be put together again, since no
underscore was in the name. Main statement: different variants have different methods, and none of them is the
one to fall back on.
-/
namespace BoundTree

namespace Text

/-- Letters and digits of the smallest alphabet, a capital first. -/
def isPascal : List Char → Bool
  | [] => false
  | c :: rest => c.isUpper && rest.all Char.isAlphanum

/-- An underscore is dropped, and the letter behind it raised. -/
def joinWords : List Char → List Char
  | [] => []
  | '_' :: c :: rest => c.toUpper :: joinWords rest
  | c :: rest => c :: joinWords rest

/-- What words were made of, if it started with a capital. -/
def pascalChars : List Char → List Char
  | [] => []
  | c :: rest => c.toUpper :: joinWords rest

theorem joinWords_cons_of_ne {c : Char} (h : c ≠ '_') (rest : List Char) :
    joinWords (c :: rest) = c :: joinWords rest := by
  rw [joinWords]
  exact fun _ _ hc _ => h hc

section

variable {c : Char}

theorem isAlphanum_of_isUpper (h : c.isUpper = true) : c.isAlphanum = true := by
  simp [Char.isAlphanum, Char.isAlpha, h]

theorem toNat_lt_of_isAlphanum (h : c.isAlphanum = true) : c.toNat < 0x80 := by
  simp only [Char.isAlphanum, Char.isAlpha, Char.isUpper, Char.isLower, Char.isDigit, Bool.or_eq_true,
    Bool.and_eq_true, decide_eq_true_eq, UInt32.le_iff_toNat_le] at h
  have hcode : c.toNat = c.val.toNat := rfl
  have hupper : 'Z'.val.toNat = 0x5a := rfl
  have hlower : 'z'.val.toNat = 0x7a := rfl
  have hdigit : '9'.val.toNat = 0x39 := rfl
  omega

theorem isUpperCase_of_isAlphanum (h : c.isAlphanum = true) : isUpperCase c = c.isUpper :=
  if_pos (toNat_lt_of_isAlphanum h)

theorem snakeChar_of_isUpper (h : c.isUpper = true) (atStart : Bool) :
    snakeChar atStart c = (if atStart then [] else ['_']) ++ [c.toLower] := by
  have halpha := isAlphanum_of_isUpper h
  have hlower : toLowerCase c = [c.toLower] := if_pos (toNat_lt_of_isAlphanum halpha)
  rw [snakeChar, isUpperCase_of_isAlphanum halpha, if_pos h, hlower]

theorem snakeChar_of_isAlphanum (h : c.isAlphanum = true) (hupper : c.isUpper = false) (atStart : Bool) :
    snakeChar atStart c = [c] := by
  rw [snakeChar, isUpperCase_of_isAlphanum h, hupper]
  rfl

theorem toUpper_toLower_of_isUpper (h : c.isUpper = true) : c.toLower.toUpper = c :=
  (Char.toUpper_toLower_eq_toUpper c).trans (Char.toUpper_eq_of_not_isLower (Char.not_isLower_of_isUpper h))

end

/-- The words that follow the first letter, joined again. -/
theorem joinWords_flatMap {rest : List Char} (h : ∀ c ∈ rest, c.isAlphanum = true) :
    joinWords (rest.flatMap (snakeChar false)) = rest := by
  induction rest with
  | nil => rfl
  | cons c rest ih =>
    obtain ⟨hc, hrest⟩ := List.forall_mem_cons.mp h
    rw [List.flatMap_cons]
    cases hupper : c.isUpper with
    | true =>
      have hfirst : joinWords (snakeChar false c ++ rest.flatMap (snakeChar false)) =
          c.toLower.toUpper :: joinWords (rest.flatMap (snakeChar false)) := by
        rw [snakeChar_of_isUpper hupper]
        rfl
      rw [hfirst, ih hrest, toUpper_toLower_of_isUpper hupper]
    | false =>
      have hne : c ≠ '_' := by
        rintro rfl
        exact absurd hc (by decide)
      rw [snakeChar_of_isAlphanum hc hupper, List.singleton_append, joinWords_cons_of_ne hne, ih hrest]

theorem isPascal_iff {name : List Char} : isPascal name = true ↔
    ∃ c rest, name = c :: rest ∧ c.isUpper = true ∧ ∀ d ∈ rest, d.isAlphanum = true := by
  cases name <;> simp [isPascal]

theorem pascalChars_snakeChars {name : List Char} (h : isPascal name = true) :
    pascalChars (snakeChars name) = name := by
  obtain ⟨c, rest, rfl, hc, hrest⟩ := isPascal_iff.mp h
  have hfirst : pascalChars (snakeChars (c :: rest)) =
      c.toLower.toUpper :: joinWords (rest.flatMap (snakeChar false)) := by
    rw [snakeChars, snakeChar_of_isUpper hc]
    rfl
  rw [hfirst, toUpper_toLower_of_isUpper hc, joinWords_flatMap hrest]

/-- Capitals are lost, but not which letters they were. -/
theorem snakeCase_injOn {a b : String} (ha : isPascal a.toList = true) (hb : isPascal b.toList = true)
    (h : snakeCase a = snakeCase b) : a = b := by
  have hchars : snakeChars a.toList = snakeChars b.toList := String.ofList_injective h
  refine String.toList_injective ?_
  rw [← pascalChars_snakeChars ha, hchars, pascalChars_snakeChars hb]

theorem isUpperCase_of_mem_snakeChar {c d : Char} (h : c.isAlphanum = true) {atStart : Bool}
    (hd : d ∈ snakeChar atStart c) : isUpperCase d = false := by
  cases hupper : c.isUpper with
  | true =>
    have hlower : c.toLower.isAlphanum = true := by
      simp [Char.isAlphanum, Char.isAlpha, hupper]
    rw [snakeChar_of_isUpper hupper, List.mem_append] at hd
    rcases hd with hd | hd
    · have hmark : d = '_' := by
        cases atStart with
        | true => exact nomatch hd
        | false => exact List.mem_singleton.mp hd
      rw [hmark]
      decide
    · rw [List.mem_singleton.mp hd, isUpperCase_of_isAlphanum hlower, Char.isUpper_toLower_eq_false]
  | false =>
    rw [snakeChar_of_isAlphanum h hupper, List.mem_singleton] at hd
    rw [hd, isUpperCase_of_isAlphanum h, hupper]

theorem isUpperCase_of_mem_snakeCase {name : String} (h : isPascal name.toList = true) :
    ∀ d ∈ (snakeCase name).toList, isUpperCase d = false := by
  intro d hd
  obtain ⟨c, rest, hname, hc, hrest⟩ := isPascal_iff.mp h
  rw [snakeCase, String.toList_ofList, hname, snakeChars, List.mem_append, List.mem_flatMap] at hd
  rcases hd with hd | ⟨e, he, hd⟩
  · exact isUpperCase_of_mem_snakeChar (isAlphanum_of_isUpper hc) hd
  · exact isUpperCase_of_mem_snakeChar (hrest e he) hd

end Text

namespace Derive

open Text

/-- A capital, letters and digits are a word that needs no mark. -/
theorem Ident.isWord_of_isPascal {name : List Char} (h : isPascal name = true) : isWord name = true := by
  have hranges : identifierStartRanges.covers 0x41 0x5a = true ∧ identifierStartRanges.covers 0x61 0x7a = true ∧
      identifierFollowRanges.covers 0x30 0x39 = true := by decide +kernel
  have hletter : ∀ {c : Char}, c.isAlpha = true → identifierStartRanges.holds c.toNat = true := by
    intro c hc
    simp only [Char.isAlpha, Char.isUpper, Char.isLower, Bool.or_eq_true, Bool.and_eq_true, decide_eq_true_eq,
      UInt32.le_iff_toNat_le] at hc
    rcases hc with hc | hc
    · exact Ranges.holds_of_covers hranges.1 hc.1 hc.2
    · exact Ranges.holds_of_covers hranges.2.1 hc.1 hc.2
  obtain ⟨c, rest, rfl, hc, hrest⟩ := isPascal_iff.mp h
  have hfirst : startsIdentifier c = true := by
    simp [startsIdentifier, hletter (show c.isAlpha = true by simp [Char.isAlpha, hc])]
  refine Bool.and_eq_true_iff.mpr ⟨hfirst, List.all_eq_true.mpr fun d hd => ?_⟩
  rcases Bool.or_eq_true_iff.mp (hrest d hd) with halpha | hdigit
  · exact continues_iff.mpr (.inr (.inl (hletter halpha)))
  · simp only [Char.isDigit, Bool.and_eq_true, decide_eq_true_eq, UInt32.le_iff_toNat_le] at hdigit
    exact continues_iff.mpr (.inr (.inr (Ranges.holds_of_covers hranges.2.2 hdigit.1 hdigit.2)))

/-- The name of the method for a variant. -/
def Variant.method (v : Variant) : String := "visit_" ++ snakeCase v.name.text

theorem Variant.method_ne_default (v : Variant) : v.method ≠ "default_visit" := by
  intro h
  have hfirst := congrArg (fun s => s.toList.head?) h
  simp [Variant.method] at hfirst

/-- Variants whose names are told apart have methods that are. -/
theorem nodup_methods {variants : List Variant} (hnames : (variants.map (·.name)).Nodup)
    (hplain : ∀ v ∈ variants, isPascal v.name.text.toList = true) :
    (variants.map Variant.method ++ ["default_visit"]).Nodup := by
  have hmethods : (variants.map Variant.method).Nodup := by
    refine hnames.of_map.map_on fun v hv w hw h => List.inj_on_of_nodup_map hnames hv hw ?_
    have hwords : snakeCase v.name.text = snakeCase w.name.text := by
      have hlists := congrArg String.toList h
      rw [Variant.method, Variant.method, String.toList_append, String.toList_append] at hlists
      exact String.toList_injective (List.append_cancel_left hlists)
    exact Ident.mk.injEq _ _ ▸ snakeCase_injOn (hplain v hv) (hplain w hw) hwords
  refine List.nodup_append.mpr ⟨hmethods, List.nodup_singleton _, fun a ha b hb => ?_⟩
  obtain ⟨v, -, rfl⟩ := List.mem_map.mp ha
  rw [List.mem_singleton.mp hb]
  exact v.method_ne_default

/-- The methods of the routes are those of the variants. -/
theorem map_method {variants : List Variant} {routes : List Route}
    (h : List.Forall₂ (fun v r => r.variant = v.name ∧ v.fields = .unnamed [r.type]) variants routes) :
    routes.map Route.method = variants.map Variant.method := by
  induction h with
  | nil => rfl
  | cons hv _ ih => simp only [List.map_cons, ih, Route.method, Variant.method, hv.1]

/-- Of any two names in letters and digits that start with a capital, the words differ if the names do, and
have no capitals. So where the variants of an enumeration have such names, and no two the same one, code is
made of it as soon as it is well-formed, and the methods of both traits, one for each variant and one to fall
back on, all have different names. -/
theorem methods_distinct :
    (∀ a b : String, isPascal a.toList = true → isPascal b.toList = true → a ≠ b →
        snakeCase a ≠ snakeCase b) ∧
      (∀ a : String, isPascal a.toList = true → ∀ c ∈ (snakeCase a).toList, isUpperCase c = false) ∧
      ∀ (item : Item) (variants : List Variant), item.form = .enum variants →
        (∀ v ∈ variants, isPascal v.name.text.toList = true) → (variants.map (·.name)).Nodup →
        (∀ code, dispatchCode? item = .ok code ↔ ∃ node routes, item.IsDispatch node routes ∧
          code = render (item.dispatch node routes).layer.blocks) ∧
        ∀ node routes, item.IsDispatch node routes →
          (item.dispatch node routes).layer.visitor.functions.map (·.name) =
              variants.map (fun v => "visit_" ++ snakeCase v.name.text) ++ ["default_visit"] ∧
            (item.dispatch node routes).layer.folder.functions.map (·.name) =
              variants.map (fun v => "visit_" ++ snakeCase v.name.text) ++ ["default_visit"] ∧
            (variants.map (fun v => "visit_" ++ snakeCase v.name.text) ++ ["default_visit"]).Nodup := by
  refine ⟨fun a b ha hb hne h => hne (snakeCase_injOn ha hb h), fun a ha => isUpperCase_of_mem_snakeCase ha,
    fun item variants hform hplain hnames => ?_⟩
  have hroutes : ∀ {node routes}, item.IsDispatch node routes →
      routes.map Route.method = variants.map Variant.method := by
    rintro node routes ⟨-, -, -, variants', hform', hall⟩
    obtain rfl : variants = variants' := Form.enum.inj (hform.symm.trans hform')
    exact map_method hall
  constructor
  · intro code
    rw [dispatchCode?_eq_ok]
    refine exists_congr fun node => exists_congr fun routes => and_congr_right fun h => ?_
    refine ⟨fun hcode => hcode.2, fun hcode => ⟨fun r hr => ?_, hcode⟩⟩
    -- every method is that of a variant, whose name is a word
    have hmethod : r.method ∈ variants.map Variant.method := hroutes h ▸ List.mem_map_of_mem hr
    obtain ⟨v, hv, hmethod⟩ := List.mem_map.mp hmethod
    rw [← hmethod]
    exact Ident.isWord_visit (Ident.isWord_of_isPascal (hplain v hv))
  · intro node routes h
    have hvisitor := congrArg (List.map Prod.fst) (dispatches item node routes).visitorMethods
    have hfolder := congrArg (List.map Prod.fst) (dispatches item node routes).folderMethods
    rw [List.map_map, List.map_append, List.map_map] at hvisitor hfolder
    exact ⟨hvisitor.trans (congrArg (· ++ ["default_visit"]) (hroutes h)),
      hfolder.trans (congrArg (· ++ ["default_visit"]) (hroutes h)), nodup_methods hnames hplain⟩

/-- An enumeration of variants whose names differ only in which letters are capitals. -/
def acronyms : Item where
  name := ⟨"E"⟩
  generics := []
  annotations := [⟨.word "visitor", some [.value (.word "node") (.word "N")]⟩]
  form := .enum [⟨⟨"HTTP2Server"⟩, .unnamed [.path false [⟨"T"⟩] none]⟩,
    ⟨⟨"Http2Server"⟩, .unnamed [.path false [⟨"U"⟩] none]⟩]

theorem methods_distinct_acronyms :
    isPascal "HTTP2Server".toList = true ∧ isPascal "Http2Server".toList = true ∧
      snakeCase "HTTP2Server" ≠ snakeCase "Http2Server" ∧
      (∀ c ∈ (snakeCase "HTTP2Server").toList, isUpperCase c = false) ∧
      ∃ node routes code, acronyms.IsDispatch node routes ∧ dispatchCode? acronyms = .ok code ∧
        (acronyms.dispatch node routes).layer.visitor.functions.map (·.name) =
          ["visit_" ++ snakeCase "HTTP2Server", "visit_" ++ snakeCase "Http2Server", "default_visit"] ∧
        ["visit_" ++ snakeCase "HTTP2Server", "visit_" ++ snakeCase "Http2Server", "default_visit"].Nodup := by
  have hfirst : isPascal "HTTP2Server".toList = true := by decide
  have hsecond : isPascal "Http2Server".toList = true := by decide
  have hgiven : given .visitor acronyms.annotations = [.value (.word "node") (.word "N")] := rfl
  have h : acronyms.IsDispatch (.word "N") [⟨⟨"HTTP2Server"⟩, .path false [⟨"T"⟩] none⟩,
      ⟨⟨"Http2Server"⟩, .path false [⟨"U"⟩] none⟩] := by
    refine ⟨by simp [Parenthesized, acronyms], fun s hs => ?_, rfl, _, rfl,
      .cons ⟨rfl, rfl⟩ (.cons ⟨rfl, rfl⟩ .nil)⟩
    rw [hgiven] at hs
    rw [List.mem_singleton.mp hs]
    exact .inr ⟨.word "N", rfl, by decide⟩
  obtain ⟨hdiffer, hlower, henum⟩ := methods_distinct
  obtain ⟨hcode, hnames⟩ := henum acronyms _ rfl (by decide) (by decide)
  obtain ⟨hvisitor, -, hnodup⟩ := hnames _ _ h
  exact ⟨hfirst, hsecond, hdiffer _ _ hfirst hsecond (by decide), hlower _ hfirst, _, _, _, h,
    (hcode _).mpr ⟨_, _, h, rfl⟩, hvisitor, hnodup⟩

end Derive
end BoundTree
