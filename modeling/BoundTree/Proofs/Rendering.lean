import BoundTree.Json.Reader
import BoundTree.Json.Writer

/-!
Interchange values as texts. Main statement: the text that is written of a value is read as the value, whatever
its strings hold, provided that it has no doubles, that its integers fit a word, that no object has two
members of one name, and that it is not nested too deep for the reader.
-/
namespace BoundTree.Json

/-! Numbers. -/

/-- A number ends before this. -/
def EndsNumber (rest : Input) : Prop :=
  ∀ c ∈ rest.head?, c.isDigit = false ∧ c ≠ '.' ∧ c ≠ 'e' ∧ c ≠ 'E'

theorem endsNumber_nil : EndsNumber [] := fun _ h => nomatch h

theorem endsNumber_cons {c : Char} (hc : c ∈ [',', ']', '\x7d']) (rest : Input) : EndsNumber (c :: rest) := by
  have htable : ∀ c ∈ [',', ']', '\x7d'], c.isDigit = false ∧ c ≠ '.' ∧ c ≠ 'e' ∧ c ≠ 'E' := by
    simp only [List.forall_mem_cons, List.not_mem_nil, false_imp_iff, implies_true, and_true]
    decide
  intro c' hc'
  cases hc'
  exact htable c hc

theorem digitsOf_append {ds rest : Input} (hds : ∀ c ∈ ds, c.isDigit = true) (hrest : EndsNumber rest) :
    digitsOf (ds ++ rest) = (ds, rest) := by
  rw [digitsOf, List.takeWhile_append_of_pos hds, List.dropWhile_append_of_pos hds]
  cases rest with
  | nil => simp
  | cons c rest =>
    have hc : c.isDigit = false := (hrest c rfl).1
    simp [hc]

theorem readFraction?_of_ends {rest : Input} (h : EndsNumber rest) :
    readFraction? rest = some (none, rest) := by
  unfold readFraction?
  split
  · exact absurd rfl (h '.' rfl).2.1
  · rfl

theorem readExponent?_of_ends {rest : Input} (h : EndsNumber rest) :
    readExponent? rest = some (none, rest) := by
  cases rest with
  | nil => rfl
  | cons c rest =>
    obtain ⟨-, -, he, hE⟩ := h c rfl
    unfold readExponent?
    exact if_neg (not_or.mpr ⟨he, hE⟩)

theorem isDigit_of_mem_toDigits {n : Nat} {c : Char} (hc : c ∈ Nat.toDigits 10 n) : c.isDigit = true :=
  Nat.isDigit_of_mem_toDigits (by decide) (by decide) hc

theorem exists_cons_toDigits (n : Nat) : ∃ c cs, Nat.toDigits 10 n = c :: cs ∧ c.isDigit = true := by
  cases hds : Nat.toDigits 10 n with
  | nil => exact absurd hds Nat.toDigits_ne_nil
  | cons c cs => exact ⟨c, cs, rfl, isDigit_of_mem_toDigits (hds ▸ List.mem_cons_self)⟩

theorem foldl_toDigits (n : Nat) :
    (Nat.toDigits 10 n).foldl (fun n d => n * 10 + digitValue d) 0 = n := by
  have hvalue := Nat.ofDigitChars_ten_toDigits (n := n)
  rw [Nat.ofDigitChars_eq_foldl] at hvalue
  simpa only [Nat.mul_comm, digitValue] using hvalue

theorem head?_toDigits_ne_zero {n : Nat} (hn : 0 < n) : (Nat.toDigits 10 n).head? ≠ some '0' := by
  induction n using Nat.strongRecOn with
  | _ n ih =>
    rw [Nat.toDigits_eq_if (by decide)]
    split
    · rename_i hlt
      have htable : ∀ n < 10, 0 < n → [n.digitChar].head? ≠ some '0' := by decide
      exact htable n hlt hn
    · rename_i hge
      have hrest := ih (n / 10) (by omega) (by omega)
      obtain ⟨c, cs, hdigits, -⟩ := exists_cons_toDigits (n / 10)
      rwa [hdigits] at hrest ⊢

/-- No more than one digit where the first is zero. -/
theorem leading_toDigits (n : Nat) :
    ¬((Nat.toDigits 10 n).isEmpty = true ∨ (Nat.toDigits 10 n).head? = some '0' ∧
      1 < (Nat.toDigits 10 n).length) := by
  rintro (hempty | ⟨hzero, hlength⟩)
  · exact Nat.toDigits_ne_nil (List.isEmpty_iff.mp hempty)
  · rcases Nat.eq_zero_or_pos n with rfl | hn
    · exact absurd hlength (by decide)
    · exact head?_toDigits_ne_zero hn hzero

theorem readNumber?_digits (negative : Bool) (m : Nat) (hzero : ¬(negative = true ∧ m = 0))
    (hword : InWord (if negative then -m else m)) {rest : Input} (hrest : EndsNumber rest) :
    readNumber? ((if negative then ['-'] else []) ++ (Nat.toDigits 10 m ++ rest)) =
      some (.int (if negative then -m else m), rest) := by
  have hunsigned : ∀ tail, Nat.toDigits 10 m ++ rest ≠ '-' :: tail := by
    intro tail heq
    obtain ⟨c, cs, hdigits, hc⟩ := exists_cons_toDigits m
    rw [hdigits] at heq
    obtain rfl := (List.cons.inj heq).1
    exact absurd hc (by decide)
  unfold readNumber?
  split
  rename_i negative' unsigned hmatch
  have hsign : negative' = negative ∧ unsigned = Nat.toDigits 10 m ++ rest := by
    cases negative with
    | true =>
      cases hmatch
      exact ⟨rfl, rfl⟩
    | false =>
      rw [if_neg Bool.false_ne_true, List.nil_append] at hmatch
      split at hmatch
      · rename_i heq
        exact absurd heq (hunsigned _)
      · cases hmatch
        exact ⟨rfl, rfl⟩
  obtain ⟨rfl, rfl⟩ := hsign
  rw [digitsOf_append (fun _ => isDigit_of_mem_toDigits) hrest]
  dsimp only
  rw [if_neg (leading_toDigits m), readFraction?_of_ends hrest, Option.bind_eq_bind, Option.bind_some]
  dsimp only
  rw [readExponent?_of_ends hrest, Option.bind_eq_bind, Option.bind_some]
  dsimp only
  rw [foldl_toDigits, if_pos ⟨rfl, rfl, hword, hzero⟩]
  rfl

/-- An integer is written with its digits, after a mark if it is negative. -/
theorem exists_digits (n : Int) : ∃ (negative : Bool) (m : Nat), n = (if negative then -(m : Int) else m) ∧
    ¬(negative = true ∧ m = 0) ∧
    (toString n).toList = (if negative then ['-'] else []) ++ Nat.toDigits 10 m := by
  cases n with
  | ofNat m => exact ⟨false, m, rfl, by simp, Nat.toList_repr⟩
  | negSucc m =>
    have hrepr : toString (Int.negSucc m) = "-" ++ (m + 1).repr := rfl
    refine ⟨true, m + 1, rfl, by simp, ?_⟩
    rw [hrepr, String.toList_append, Nat.toList_repr]
    rfl

theorem readNumber?_toString {n : Int} (hn : InWord n) {rest : Input} (hrest : EndsNumber rest) :
    readNumber? ((toString n).toList ++ rest) = some (.int n, rest) := by
  obtain ⟨negative, m, rfl, hzero, htext⟩ := exists_digits n
  rw [htext, List.append_assoc]
  exact readNumber?_digits negative m hzero hn hrest

/-- A number begins with a character that nothing else begins with. -/
theorem exists_head_toString (n : Int) : ∃ c cs, (toString n).toList = c :: cs ∧
    c ∉ [' ', '\n', '\t', '\r', 'n', 't', 'f', '\x22', '[', '\x7b', ']'] := by
  have htable : ∀ c ∈ [' ', '\n', '\t', '\r', 'n', 't', 'f', '\x22', '[', '\x7b', ']'],
      c.isDigit = false ∧ c ≠ '-' := by
    simp only [List.forall_mem_cons, List.not_mem_nil, false_imp_iff, implies_true, and_true]
    decide
  obtain ⟨negative, m, -, -, htext⟩ := exists_digits n
  rw [htext]
  cases negative with
  | true => exact ⟨'-', _, rfl, fun h => (htable _ h).2 rfl⟩
  | false =>
    obtain ⟨c, cs, hdigits, hc⟩ := exists_cons_toDigits m
    refine ⟨c, cs, hdigits, fun h => ?_⟩
    rw [(htable c h).1] at hc
    cases hc

/-! Strings. -/

theorem readUnit?_append {cs rest : Input} {n : Nat} (h : readUnit? cs = some (n, [])) :
    readUnit? (cs ++ rest) = some (n, rest) := by
  match cs, h with
  | a :: b :: c :: d :: tail, h =>
    simp only [readUnit?, Option.bind_eq_bind, Option.bind_eq_some_iff, Option.pure_def, Option.some_inj,
      Prod.mk.injEq] at h
    obtain ⟨a', ha, b', hb, c', hc, d', hd, rfl, rfl⟩ := h
    simp [readUnit?, ha, hb, hc, hd]

theorem readCode?_control {c : Char} (hc : c.toNat < 0x20) (rest : Input) :
    readCode? (hexDigits4 c.toNat ++ rest) = some (c, rest) := by
  have htable : ∀ n < 0x20, readUnit? (hexDigits4 n) = some (n, []) := by decide +kernel
  rw [readCode?, readUnit?_append (htable _ hc), Option.bind_eq_bind, Option.bind_some]
  dsimp only
  rw [if_neg (by omega), if_neg (by omega), Char.ofNat_toNat]
  rfl

/-- An escaped character is read as the character. -/
theorem readChars?_escaped (c : Char) (fuel : Nat) (rest : Input) :
    readChars? (fuel + 1) (escaped c ++ rest) =
      (readChars? fuel rest).bind fun r => some (c :: r.1, r.2) := by
  have hcoded : ∀ tail, readChars? (fuel + 1) ('\\' :: 'u' :: tail) =
      (readCode? tail).bind fun r => (readChars? fuel r.2).bind fun r' => some (r.1 :: r'.1, r'.2) :=
    fun _ => rfl
  by_cases hshort : c ∈ ['\x22', '\\', '\n', '\r', '\t']
  · simp only [List.mem_cons, List.not_mem_nil, or_false] at hshort
    rcases hshort with rfl | rfl | rfl | rfl | rfl <;> rfl
  · simp only [List.mem_cons, List.not_mem_nil, or_false, not_or] at hshort
    obtain ⟨hmark, hslash, hline, hreturn, htab⟩ := hshort
    rw [escaped, if_neg hmark, if_neg hslash, if_neg hline, if_neg hreturn, if_neg htab]
    by_cases hcontrol : c.toNat < 0x20
    · rw [if_pos hcontrol, List.append_assoc, List.cons_append, List.cons_append, List.nil_append, hcoded,
        readCode?_control hcontrol, Option.bind_some]
    · rw [if_neg hcontrol, List.cons_append, List.nil_append]
      conv => lhs; unfold readChars?
      dsimp only
      rw [if_neg hmark, if_neg hslash, if_neg hcontrol]
      rfl

theorem escaped_ne_nil (c : Char) : escaped c ≠ [] := by
  unfold escaped
  repeat' split
  all_goals simp

/-- The text of a string is read as the string. -/
theorem readString?_escaped (s : String) (rest : Input) :
    readString? (s.toList.flatMap escaped ++ '\x22' :: rest) = some (s, rest) := by
  have hchars : ∀ (cs : List Char) (fuel : Nat), (cs.flatMap escaped).length < fuel →
      readChars? fuel (cs.flatMap escaped ++ '\x22' :: rest) = some (cs, rest) := by
    intro cs
    induction cs with
    | nil =>
      intro fuel hfuel
      cases fuel with
      | zero => cases hfuel
      | succ fuel => rfl
    | cons c cs ih =>
      intro fuel hfuel
      have hlength : 0 < (escaped c).length := List.length_pos_iff.mpr (escaped_ne_nil c)
      rw [List.flatMap_cons, List.length_append] at hfuel
      cases fuel with
      | zero => cases hfuel
      | succ fuel =>
        rw [List.flatMap_cons, List.append_assoc, readChars?_escaped, ih fuel (by omega), Option.bind_some]
  rw [readString?, hchars _ _ (by rw [List.length_append]; omega), Option.bind_eq_bind, Option.bind_some]
  exact congrArg (fun t => some (t, rest)) String.ofList_toList

/-! Values. -/

/-- Values that are nested at most so deep, without doubles, with integers that fit a word, and with members of
different names. -/
inductive Plain : Nat → Json → Prop
  | null (depth : Nat) : Plain depth .null
  | bool (depth : Nat) (b : Bool) : Plain depth (.bool b)
  | int (depth : Nat) {n : Int} (h : InWord n) : Plain depth (.int n)
  | str (depth : Nat) (s : String) : Plain depth (.str s)
  | arr {depth : Nat} {items : List Json} (h : ∀ j ∈ items, Plain depth j) : Plain (depth + 1) (.arr items)
  | obj {depth : Nat} {members : List (String × Json)} (hnames : (members.map (·.1)).Nodup)
      (h : ∀ m ∈ members, Plain depth m.2) : Plain (depth + 1) (.obj members)

/-! The characters of texts. -/

theorem toList_quote (s : String) : (quote s).toList = '\x22' :: (s.toList.flatMap escaped ++ ['\x22']) := by
  rw [quote, String.toList_ofList]
  rfl

theorem toList_render_arr (items : List Json) :
    (render (.arr items)).toList = '[' :: ((renderItems items).toList ++ [']']) := by
  rw [render, String.toList_append, String.toList_append]
  rfl

theorem toList_render_obj (members : List (String × Json)) :
    (render (.obj members)).toList = '\x7b' :: ((renderMembers members).toList ++ ['\x7d']) := by
  rw [render, String.toList_append, String.toList_append]
  rfl

theorem toList_renderItems_cons (j j' : Json) (items : List Json) :
    (renderItems (j :: j' :: items)).toList = j.render.toList ++ ',' :: (renderItems (j' :: items)).toList := by
  have htext : renderItems (j :: j' :: items) = j.render ++ "," ++ renderItems (j' :: items) := rfl
  rw [htext, String.toList_append, String.toList_append, List.append_assoc]
  rfl

theorem toList_renderMembers_singleton (m : String × Json) :
    (renderMembers [m]).toList = (quote m.1).toList ++ ':' :: m.2.render.toList := by
  have htext : renderMembers [m] = quote m.1 ++ ":" ++ m.2.render := rfl
  rw [htext, String.toList_append, String.toList_append, List.append_assoc]
  rfl

theorem toList_renderMembers_cons (m m' : String × Json) (members : List (String × Json)) :
    (renderMembers (m :: m' :: members)).toList =
      (renderMembers [m]).toList ++ ',' :: (renderMembers (m' :: members)).toList := by
  have htext : renderMembers (m :: m' :: members) = renderMembers [m] ++ "," ++ renderMembers (m' :: members) :=
    rfl
  rw [htext, String.toList_append, String.toList_append, List.append_assoc]
  rfl

theorem skipBlanks_cons {c : Char} (h : isBlank c = false) (rest : Input) :
    skipBlanks (c :: rest) = c :: rest := by
  rw [skipBlanks, List.dropWhile_cons_of_neg (by simp [h])]

/-- What a text begins with is no blank and does not end a list. -/
theorem exists_head {depth : Nat} {j : Json} (h : Plain depth j) :
    ∃ c cs, j.render.toList = c :: cs ∧ isBlank c = false ∧ c ≠ ']' := by
  cases h with
  | null => exact ⟨_, _, rfl, by decide, by decide⟩
  | bool _ b => cases b <;> exact ⟨_, _, rfl, by decide, by decide⟩
  | int =>
    rename_i n hn
    obtain ⟨c, cs, htext, hc⟩ := exists_head_toString n
    simp only [List.mem_cons, List.not_mem_nil, or_false, not_or] at hc
    obtain ⟨hblank, hline, htab, hreturn, -, -, -, -, -, -, hend⟩ := hc
    exact ⟨c, cs, htext, by simp [isBlank, *], hend⟩
  | str _ s => exact ⟨_, _, toList_quote s, by decide, by decide⟩
  | arr => exact ⟨_, _, toList_render_arr _, by decide, by decide⟩
  | obj => exact ⟨_, _, toList_render_obj _, by decide, by decide⟩

theorem exists_head_renderItems {depth : Nat} {items : List Json} (hne : items ≠ [])
    (h : ∀ j ∈ items, Plain depth j) :
    ∃ c cs, (renderItems items).toList = c :: cs ∧ isBlank c = false ∧ c ≠ ']' := by
  cases items with
  | nil => exact absurd rfl hne
  | cons j items =>
    obtain ⟨c, cs, htext, hc⟩ := exists_head (h j List.mem_cons_self)
    cases items with
    | nil => exact ⟨c, cs, htext, hc⟩
    | cons j' items =>
      rw [toList_renderItems_cons, htext]
      exact ⟨c, _, rfl, hc⟩

theorem exists_head_renderMembers {members : List (String × Json)} (hne : members ≠ []) :
    ∃ cs, (renderMembers members).toList = '\x22' :: cs := by
  cases members with
  | nil => exact absurd rfl hne
  | cons m members =>
    cases members with
    | nil =>
      rw [toList_renderMembers_singleton, toList_quote]
      exact ⟨_, rfl⟩
    | cons m' members =>
      rw [toList_renderMembers_cons, toList_renderMembers_singleton, toList_quote]
      exact ⟨_, rfl⟩

/-! Reading values. -/

theorem lastMembers_of_nodup {members : List (String × Json)} (h : (members.map (·.1)).Nodup) :
    lastMembers members = members := by
  induction members with
  | nil => rfl
  | cons m members ih =>
    obtain ⟨hfresh, hnodup⟩ := List.nodup_cons.mp h
    have hnone : members.any (·.1 == m.1) = false := by
      rw [List.any_eq_false]
      intro k hk heq
      exact hfresh (List.mem_map.mpr ⟨k, hk, by simpa using heq⟩)
    rw [lastMembers, ih hnodup]
    simp [hnone]

/-- The text of a value is read as the value, whatever comes after it. -/
def Readable (depth : Nat) (j : Json) : Prop :=
  ∀ {fuel : Nat} {rest : Input}, j.render.toList.length < fuel → EndsNumber rest →
    readValue? fuel depth (j.render.toList ++ rest) = some (j, rest)

theorem readItems?_last {fuel depth : Nat} {j : Json} {input rest : Input}
    (hj : readValue? fuel depth input = some (j, ']' :: rest)) :
    readItems? (fuel + 1) depth input = some ([j], rest) := by
  rw [readItems?]
  exact Option.bind_eq_some_iff.mpr ⟨_, hj, rfl⟩

theorem readItems?_more {fuel depth : Nat} {j : Json} {items : List Json} {input input' rest : Input}
    (hj : readValue? fuel depth input = some (j, ',' :: input'))
    (hitems : readItems? fuel depth input' = some (items, rest)) :
    readItems? (fuel + 1) depth input = some (j :: items, rest) := by
  rw [readItems?]
  refine Option.bind_eq_some_iff.mpr ⟨_, hj, ?_⟩
  exact Option.bind_eq_some_iff.mpr ⟨_, hitems, rfl⟩

theorem readItems?_render {depth : Nat} {items : List Json} (hne : items ≠ [])
    (h : ∀ j ∈ items, Readable depth j) {fuel : Nat} (hfuel : (renderItems items).toList.length + 1 < fuel)
    (rest : Input) :
    readItems? fuel depth ((renderItems items).toList ++ ']' :: rest) = some (items, rest) := by
  induction items generalizing fuel with
  | nil => exact absurd rfl hne
  | cons j items ih =>
    obtain ⟨hj, hitems⟩ := List.forall_mem_cons.mp h
    cases fuel with
    | zero => cases hfuel
    | succ fuel =>
      cases items with
      | nil =>
        rw [renderItems] at hfuel ⊢
        exact readItems?_last (hj (by omega) (endsNumber_cons (by decide) rest))
      | cons j' items =>
        rw [toList_renderItems_cons, List.length_append, List.length_cons] at hfuel
        rw [toList_renderItems_cons, List.append_assoc, List.cons_append]
        exact readItems?_more (hj (by omega) (endsNumber_cons (by decide) _))
          (ih (List.cons_ne_nil j' items) hitems (by omega))

/-- The name and the mark before the value. -/
theorem toList_renderMembers_append (m : String × Json) (input : Input) :
    (renderMembers [m]).toList ++ input =
      '\x22' :: (m.1.toList.flatMap escaped ++ '\x22' :: ':' :: (m.2.render.toList ++ input)) := by
  rw [toList_renderMembers_singleton, toList_quote, List.cons_append, List.cons_append, List.append_assoc,
    List.append_assoc, List.cons_append, List.cons_append, List.nil_append]

theorem readMembers?_last {fuel depth : Nat} {m : String × Json} {input rest : Input}
    (hm : readValue? fuel depth (m.2.render.toList ++ input) = some (m.2, '\x7d' :: rest)) :
    readMembers? (fuel + 1) depth ((renderMembers [m]).toList ++ input) = some ([m], rest) := by
  rw [toList_renderMembers_append, readMembers?, skipBlanks_cons (by decide)]
  refine Option.bind_eq_some_iff.mpr ⟨_, readString?_escaped m.1 _, ?_⟩
  exact Option.bind_eq_some_iff.mpr ⟨_, hm, rfl⟩

theorem readMembers?_more {fuel depth : Nat} {m : String × Json} {members : List (String × Json)}
    {input input' rest : Input}
    (hm : readValue? fuel depth (m.2.render.toList ++ input) = some (m.2, ',' :: input'))
    (hmembers : readMembers? fuel depth input' = some (members, rest)) :
    readMembers? (fuel + 1) depth ((renderMembers [m]).toList ++ input) = some (m :: members, rest) := by
  rw [toList_renderMembers_append, readMembers?, skipBlanks_cons (by decide)]
  refine Option.bind_eq_some_iff.mpr ⟨_, readString?_escaped m.1 _, ?_⟩
  refine Option.bind_eq_some_iff.mpr ⟨_, hm, ?_⟩
  exact Option.bind_eq_some_iff.mpr ⟨_, hmembers, rfl⟩

theorem readMembers?_render {depth : Nat} {members : List (String × Json)} (hne : members ≠ [])
    (h : ∀ m ∈ members, Readable depth m.2) {fuel : Nat}
    (hfuel : (renderMembers members).toList.length + 1 < fuel) (rest : Input) :
    readMembers? fuel depth ((renderMembers members).toList ++ '\x7d' :: rest) = some (members, rest) := by
  induction members generalizing fuel with
  | nil => exact absurd rfl hne
  | cons m members ih =>
    obtain ⟨hm, hmembers⟩ := List.forall_mem_cons.mp h
    cases fuel with
    | zero => cases hfuel
    | succ fuel =>
      cases members with
      | nil =>
        have hlength : m.2.render.toList.length < fuel := by
          rw [toList_renderMembers_singleton, List.length_append, List.length_cons] at hfuel
          omega
        exact readMembers?_last (hm hlength (endsNumber_cons (by decide) rest))
      | cons m' members =>
        rw [toList_renderMembers_cons, List.length_append, List.length_cons] at hfuel
        have hlength : m.2.render.toList.length < fuel := by
          rw [toList_renderMembers_singleton, List.length_append, List.length_cons] at hfuel
          omega
        rw [toList_renderMembers_cons, List.append_assoc, List.cons_append]
        exact readMembers?_more (hm hlength (endsNumber_cons (by decide) _))
          (ih (List.cons_ne_nil m' members) hmembers (by omega))

/-- Every text is read in a first step. -/
theorem readable_of_succ {depth : Nat} {j : Json}
    (h : ∀ fuel rest, j.render.toList.length ≤ fuel → EndsNumber rest →
      readValue? (fuel + 1) depth (j.render.toList ++ rest) = some (j, rest)) : Readable depth j := by
  intro fuel rest hfuel hrest
  cases fuel with
  | zero => cases hfuel
  | succ fuel => exact h fuel rest (Nat.le_of_lt_succ hfuel) hrest

theorem readable_int (depth : Nat) {n : Int} (hn : InWord n) : Readable depth (.int n) := by
  refine readable_of_succ fun fuel rest hfuel hrest => ?_
  have hnumber := readNumber?_toString hn hrest
  obtain ⟨c, cs, htext, hc⟩ := exists_head_toString n
  rw [render]
  rw [htext, List.cons_append] at hnumber ⊢
  simp only [List.mem_cons, List.not_mem_nil, or_false, not_or] at hc
  obtain ⟨hblank, hline, htab, hreturn, hnull, htrue, hfalse, hmark, hopen, hbrace, -⟩ := hc
  unfold readValue?
  rw [skipBlanks_cons (by simp [isBlank, *])]
  dsimp only
  rw [if_neg hnull, if_neg htrue, if_neg hfalse, if_neg hmark, if_neg hopen, if_neg hbrace, hnumber]

theorem readable_str (depth : Nat) (s : String) : Readable depth (.str s) := by
  refine readable_of_succ fun fuel rest hfuel hrest => ?_
  have hread : ∀ input, readValue? (fuel + 1) depth ('\x22' :: input) =
      (readString? input).map fun r => (Json.str r.1, r.2) := fun _ => rfl
  rw [render, toList_quote, List.cons_append, List.append_assoc, List.cons_append, List.nil_append, hread,
    readString?_escaped, Option.map_some]

/-- An array that does not end at once. -/
theorem readValue?_arr {fuel depth : Nat} {c : Char} {input rest : Input} {items : List Json}
    (hblank : isBlank c = false) (hend : c ≠ ']')
    (h : readItems? fuel depth (c :: input) = some (items, rest)) :
    readValue? (fuel + 1) (depth + 1) ('[' :: c :: input) = some (.arr items, rest) := by
  have hskip : skipBlanks (c :: input) = c :: input := skipBlanks_cons hblank input
  unfold readValue?
  rw [skipBlanks_cons (by decide)]
  dsimp only
  rw [if_neg (by decide), if_neg (by decide), if_neg (by decide), if_neg (by decide), if_pos rfl, hskip]
  split
  · rename_i heq
    exact absurd (List.cons.inj heq).1 hend
  · rw [h]
    rfl

theorem readable_arr {depth : Nat} {items : List Json} (hplain : ∀ j ∈ items, Plain depth j)
    (h : ∀ j ∈ items, Readable depth j) : Readable (depth + 1) (.arr items) := by
  refine readable_of_succ fun fuel rest hfuel hrest => ?_
  rw [toList_render_arr, List.length_cons, List.length_append] at hfuel
  rw [toList_render_arr, List.cons_append, List.append_assoc, List.cons_append, List.nil_append]
  by_cases hne : items = []
  · rw [hne]
    rfl
  · have hitems := readItems?_render hne h hfuel rest
    obtain ⟨c, cs, htext, hblank, hend⟩ := exists_head_renderItems hne hplain
    rw [htext, List.cons_append] at hitems ⊢
    exact readValue?_arr hblank hend hitems

/-- An object that has members. -/
theorem readValue?_obj {fuel depth : Nat} {input rest : Input} {members : List (String × Json)}
    (h : readMembers? fuel depth ('\x22' :: input) = some (members, rest)) :
    readValue? (fuel + 1) (depth + 1) ('\x7b' :: '\x22' :: input) = some (.obj (lastMembers members), rest) := by
  have hread : readValue? (fuel + 1) (depth + 1) ('\x7b' :: '\x22' :: input) =
      (readMembers? fuel depth ('\x22' :: input)).map fun r => (.obj (lastMembers r.1), r.2) := rfl
  rw [hread, h, Option.map_some]

theorem readable_obj {depth : Nat} {members : List (String × Json)} (hnames : (members.map (·.1)).Nodup)
    (h : ∀ m ∈ members, Readable depth m.2) : Readable (depth + 1) (.obj members) := by
  refine readable_of_succ fun fuel rest hfuel hrest => ?_
  rw [toList_render_obj, List.length_cons, List.length_append] at hfuel
  rw [toList_render_obj, List.cons_append, List.append_assoc, List.cons_append, List.nil_append]
  by_cases hne : members = []
  · rw [hne]
    rfl
  · have hmembers := readMembers?_render hne h hfuel rest
    obtain ⟨cs, htext⟩ := exists_head_renderMembers hne
    rw [htext, List.cons_append] at hmembers ⊢
    rw [readValue?_obj hmembers, lastMembers_of_nodup hnames]

theorem readable_of_plain {depth : Nat} {j : Json} (h : Plain depth j) : Readable depth j := by
  induction h with
  | null => exact readable_of_succ fun _ _ _ _ => rfl
  | bool depth b => exact readable_of_succ fun _ _ _ _ => by cases b <;> rfl
  | int depth hn => exact readable_int depth hn
  | str depth s => exact readable_str depth s
  | arr h ih => exact readable_arr h ih
  | obj hnames h ih => exact readable_obj hnames ih

/-- What is written as a text is read back from it. -/
theorem parse?_render {j : Json} (h : Plain 127 j) : parse? j.render = some j := by
  have hread : readValue? (2 * j.render.toList.length + 2) 127 (j.render.toList ++ []) = some (j, []) :=
    readable_of_plain h (by omega) endsNumber_nil
  rw [List.append_nil] at hread
  rw [parse?, hread]
  rfl

end BoundTree.Json
