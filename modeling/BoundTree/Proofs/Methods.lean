import BoundTree.Derive.Ident
import BoundTree.Text.Snake

/-!
The names of methods, which are made of the names of variants. Main statement: what is made of a word is a
word, since the lower case of a character that identifiers are made of is made of such characters.
-/
namespace BoundTree

namespace Text

theorem continues_iff {c : Char} : continuesIdentifier c = true ↔
    c = '_' ∨ identifierStartRanges.holds c.toNat = true ∨ identifierFollowRanges.holds c.toNat = true := by
  simp [continuesIdentifier, startsIdentifier, or_assoc]

/-- Some range of the table holds all code points from the first to the last. -/
def Ranges.covers (table : Ranges) (first last : Nat) : Bool :=
  table.any fun r => r.1.ble first && last.ble r.2

/-- No range of the table holds a code point from the first to the last. -/
def Ranges.avoids (table : Ranges) (first last : Nat) : Bool :=
  table.all fun r => r.2.blt first || last.blt r.1

theorem Ranges.holds_of_covers {table : Ranges} {first last code : Nat} (h : table.covers first last = true)
    (hfirst : first ≤ code) (hlast : code ≤ last) : table.holds code = true := by
  obtain ⟨r, hr, hwithin⟩ := List.any_eq_true.mp h
  simp only [Bool.and_eq_true, Nat.ble_eq] at hwithin
  exact holds_iff.mpr ⟨r, hr, Nat.le_trans hwithin.1 hfirst, Nat.le_trans hlast hwithin.2⟩

theorem Ranges.holds_of_avoids {table : Ranges} {first last code : Nat} (h : table.avoids first last = true)
    (hfirst : first ≤ code) (hlast : code ≤ last) : table.holds code = false := by
  refine Bool.eq_false_iff.mpr fun hholds => ?_
  obtain ⟨r, hr, hlow, hhigh⟩ := holds_iff.mp hholds
  have hout := List.all_eq_true.mp h r hr
  simp only [Bool.or_eq_true, Nat.blt_eq] at hout
  omega

/-- The characters that identifiers are made of are no surrogates. -/
theorem isValidChar_of_starts {code : Nat} (h : identifierStartRanges.holds code = true) :
    code.isValidChar := by
  have hranges : ∀ r ∈ identifierStartRanges, r.2 < 0xd800 ∨ 0xdfff < r.1 ∧ r.2 < 0x110000 := by
    decide +kernel
  obtain ⟨r, hr, hlow, hhigh⟩ := Ranges.holds_iff.mp h
  rcases hranges r hr with hr | hr
  · exact .inl (Nat.lt_of_le_of_lt hhigh hr)
  · exact .inr ⟨Nat.lt_of_lt_of_le hr.1 hlow, Nat.lt_of_le_of_lt hhigh hr.2⟩

/-- A stride of capitals is taken into letters as a whole, or identifiers are made of none of them. -/
theorem lowerCaseShifts_covered : lowerCaseShifts.all (fun s =>
    identifierStartRanges.covers (s.1.first + s.2).toNat (s.1.last + s.2).toNat ||
      identifierStartRanges.avoids s.1.first s.1.last &&
        identifierFollowRanges.avoids s.1.first s.1.last) = true := by
  decide +kernel

theorem continues_of_code {code : Nat} (h : identifierStartRanges.holds code = true) :
    continuesIdentifier (Char.ofNat code) = true := by
  have hvalid : (Char.ofNat code).toNat = code := by
    rw [Char.ofNat, dif_pos (isValidChar_of_starts h)]
    rfl
  exact continues_iff.mpr (.inr (.inl (by rw [hvalid, h])))

theorem continues_toLower {c : Char} (h : continuesIdentifier c = true) :
    continuesIdentifier c.toLower = true := by
  unfold Char.toLower
  split
  · next hupper =>
    have hletters : identifierStartRanges.covers 0x61 0x7a = true := by decide +kernel
    have hfirst : 0x41 ≤ c.val.toNat := UInt32.le_iff_toNat_le.mp hupper.1
    have hlast : c.val.toNat ≤ 0x5a := UInt32.le_iff_toNat_le.mp hupper.2
    have hcode : (c.val + ('a'.val - 'A'.val)).toNat = c.val.toNat + 0x20 := by
      have hshift : ('a'.val - 'A'.val).toNat = 0x20 := by decide
      rw [UInt32.toNat_add, hshift]
      omega
    refine continues_iff.mpr (.inr (.inl (Ranges.holds_of_covers hletters ?_ ?_)))
    · exact Nat.le_trans (Nat.add_le_add_right hfirst 0x20) (Nat.le_of_eq hcode.symm)
    · exact Nat.le_trans (Nat.le_of_eq hcode) (Nat.add_le_add_right hlast 0x20)
  · exact h

/-- What identifiers may be made of has a lower case that they may be made of. -/
theorem continues_of_mem_toLowerCase {c d : Char} (h : continuesIdentifier c = true)
    (hd : d ∈ toLowerCase c) : continuesIdentifier d = true := by
  unfold toLowerCase at hd
  split at hd
  · exact List.mem_singleton.mp hd ▸ continues_toLower h
  next hlarge =>
  split at hd
  · simp only [List.mem_cons, List.not_mem_nil, or_false] at hd
    rcases hd with rfl | rfl <;> decide +kernel
  split at hd
  · next stride shift hfind =>
    obtain rfl := List.mem_singleton.mp hd
    have hstride : stride.first ≤ c.toNat ∧ c.toNat ≤ stride.last := by
      have hholds : stride.holds c.toNat = true := by simpa using List.find?_some hfind
      simp only [Stride.holds, Bool.and_eq_true, decide_eq_true_eq] at hholds
      exact hholds.1
    have hcovered := List.all_eq_true.mp lowerCaseShifts_covered _ (List.mem_of_find?_eq_some hfind)
    simp only [Bool.or_eq_true, Bool.and_eq_true] at hcovered
    rcases hcovered with hcovers | ⟨hstart, hfollow⟩
    · exact continues_of_code (Ranges.holds_of_covers hcovers (by omega) (by omega))
    · rcases continues_iff.mp h with rfl | hc | hc
      · exact absurd (by decide) hlarge
      · rw [Ranges.holds_of_avoids hstart hstride.1 hstride.2] at hc
        cases hc
      · rw [Ranges.holds_of_avoids hfollow hstride.1 hstride.2] at hc
        cases hc
  · exact List.mem_singleton.mp hd ▸ h

theorem continues_of_mem_snakeChar {atStart : Bool} {c d : Char} (h : continuesIdentifier c = true)
    (hd : d ∈ snakeChar atStart c) : continuesIdentifier d = true := by
  unfold snakeChar at hd
  split at hd
  · rcases List.mem_append.mp hd with hd | hd
    · split at hd
      · cases hd
      · exact continues_iff.mpr (.inl (List.mem_singleton.mp hd))
    · exact continues_of_mem_toLowerCase h hd
  · exact List.mem_singleton.mp hd ▸ h

theorem continues_snakeCase {name : String} (h : name.toList.all continuesIdentifier = true) :
    (snakeCase name).toList.all continuesIdentifier = true := by
  rw [snakeCase, String.toList_ofList]
  cases hname : name.toList with
  | nil => rfl
  | cons c rest =>
    rw [hname, List.all_cons, Bool.and_eq_true, List.all_eq_true] at h
    refine List.all_eq_true.mpr fun d hd => ?_
    rcases List.mem_append.mp hd with hd | hd
    · exact continues_of_mem_snakeChar h.1 hd
    · obtain ⟨e, he, hd⟩ := List.mem_flatMap.mp hd
      exact continues_of_mem_snakeChar (h.2 e he) hd

end Text

namespace Derive.Ident

theorem continues_of_isWord {l : List Char} (h : isWord l = true) :
    l.all Text.continuesIdentifier = true := by
  cases l with
  | nil => rfl
  | cons c rest =>
    rw [isWord, Bool.and_eq_true] at h
    rw [List.all_cons, h.2, Text.continuesIdentifier, h.1]
    rfl

theorem isWord_append {a b : List Char} (ha : isWord a = true)
    (hb : b.all Text.continuesIdentifier = true) : isWord (a ++ b) = true := by
  cases a with
  | nil => cases ha
  | cons c rest =>
    rw [isWord, Bool.and_eq_true] at ha
    rw [List.cons_append, isWord, List.all_append, ha.1, ha.2, hb]
    rfl

/-- The method for a word is a word. -/
theorem isWord_visit {name : String} (h : isWord name.toList = true) :
    isWord ("visit_" ++ Text.snakeCase name).toList = true := by
  have hstart : isWord "visit_".toList = true := by decide +kernel
  rw [String.toList_append]
  exact isWord_append hstart (Text.continues_snakeCase (continues_of_isWord h))

/-- The mark of a raw identifier would stay inside the name of the method. -/
theorem isWord_visit_raw {name : String} {word : List Char} (h : rawWord? name.toList = some word) :
    Ident.isWord ("visit_" ++ Text.snakeCase name).toList = false := by
  have hname : name.toList = 'r' :: '#' :: word := by
    unfold rawWord? at h
    split at h
    · next heq =>
      cases h
      exact heq
    · cases h
  have hmark : '#' ∈ (Text.snakeCase name).toList := by
    have hsame : Text.snakeChar false '#' = ['#'] := by decide +kernel
    rw [Text.snakeCase, String.toList_ofList, hname, Text.snakeChars, List.flatMap_cons, hsame]
    simp
  refine Bool.eq_false_iff.mpr fun hword => ?_
  have hall := List.all_eq_true.mp (continues_of_isWord hword) '#' (by simp [hmark])
  have hnone : Text.continuesIdentifier '#' = false := by decide +kernel
  exact Bool.false_ne_true (hnone.symm.trans hall)

/-- Of the identifiers that can be written, the raw ones alone have no method. -/
theorem isWord_visit_iff {s : String} {i : Ident} (h : ofWord? s = some i) :
    isWord ("visit_" ++ Text.snakeCase i.text).toList = true ↔ rawWord? i.text.toList = none := by
  unfold ofWord? at h
  split at h
  · next word hraw =>
    split at h
    · cases h
      rw [isWord_visit_raw hraw, hraw]
      exact iff_of_false Bool.false_ne_true (by simp)
    · cases h
  · next hplain =>
    split at h
    · next hword =>
      cases h
      exact iff_of_true (isWord_visit hword) hplain
    · cases h

end Derive.Ident
end BoundTree
