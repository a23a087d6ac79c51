import BoundTree.Derive.Settings
import Mathlib.Data.List.Forall2

/-!
What the annotations of a declaration say. Settings are read in order, and what is read of one does not
depend on those before it. Main statement: reading succeeds exactly when every annotation of the name has
parentheses and every setting between them can be read, and then it gives what all settings say together.
-/
namespace BoundTree.Derive

section Success

variable {ε α β : Type}

theorem bind_eq_ok {x : Except ε α} {f : α → Except ε β} {b : β} :
    x >>= f = .ok b ↔ ∃ a, x = .ok a ∧ f a = .ok b := by
  cases x <;> simp [bind, Except.bind]

/-- A result that is made of whatever comes of the computation. -/
theorem bind_pure_eq_ok {x : Except ε α} {f : α → β} {b c : β} (h : ∀ a, x = .ok a → f a = c) :
    (x >>= fun a => pure (f a)) = .ok b ↔ (∃ a, x = .ok a) ∧ b = c := by
  rw [bind_eq_ok]
  constructor
  · rintro ⟨a, ha, hb⟩
    exact ⟨⟨a, ha⟩, (Except.ok.inj hb).symm.trans (h a ha)⟩
  · rintro ⟨⟨a, ha⟩, rfl⟩
    exact ⟨a, ha, congrArg Except.ok (h a ha)⟩

/-- Steps that have a condition each, and a known effect. -/
theorem foldlM_eq_ok {f : β → α → Except ε β} {p : α → Prop} {g : β → α → β}
    (h : ∀ b a c, f b a = .ok c ↔ p a ∧ c = g b a) (l : List α) (b c : β) :
    l.foldlM f b = .ok c ↔ (∀ a ∈ l, p a) ∧ c = l.foldl g b := by
  induction l generalizing b with
  | nil => simp [pure, Except.pure, eq_comm]
  | cons a l ih =>
    rw [List.foldlM_cons, bind_eq_ok, List.forall_mem_cons, List.foldl_cons]
    constructor
    · rintro ⟨d, hd, hc⟩
      obtain ⟨hp, rfl⟩ := (h b a d).mp hd
      obtain ⟨hall, rfl⟩ := (ih _).mp hc
      exact ⟨⟨hp, hall⟩, rfl⟩
    · rintro ⟨⟨hp, hall⟩, rfl⟩
      exact ⟨_, (h b a _).mpr ⟨hp, rfl⟩, (ih _).mpr ⟨hall, rfl⟩⟩

/-- The error of a loop is that of one of its steps. -/
theorem of_foldlM_eq_error {f : β → α → Except ε β} {p : ε → Prop} {l : List α}
    (h : ∀ a ∈ l, ∀ b e, f b a = .error e → p e) {b : β} {e : ε} (he : l.foldlM f b = .error e) : p e := by
  induction l generalizing b with
  | nil => cases he
  | cons a l ih =>
    obtain ⟨hhead, htail⟩ := List.forall_mem_cons.mp h
    rw [List.foldlM_cons] at he
    cases hfirst : f b a with
    | error e' =>
      rw [hfirst] at he
      cases he
      exact hhead b e hfirst
    | ok c =>
      rw [hfirst] at he
      exact ih htail he

/-- Steps that lead element by element to the results. -/
theorem mapM_eq_ok {f : α → Except ε β} {l : List α} {bs : List β} :
    l.mapM f = .ok bs ↔ List.Forall₂ (fun a b => f a = .ok b) l bs := by
  induction l generalizing bs with
  | nil => simp [pure, Except.pure, eq_comm]
  | cons a l ih =>
    rw [List.mapM_cons, List.forall₂_cons_left_iff]
    simp only [bind_eq_ok, ih, pure, Except.pure, Except.ok.injEq]
    exact ⟨fun ⟨b, hb, rest, hrest, h⟩ => ⟨b, rest, hb, hrest, h.symm⟩,
      fun ⟨b, rest, hb, hrest, h⟩ => ⟨b, hb, rest, hrest, h.symm⟩⟩

/-- What stands last on one side is related to what stands last on the other. -/
theorem forall₂_append_singleton {R : α → β → Prop} {l : List α} {a : α} {m : List β} :
    List.Forall₂ R (l ++ [a]) m ↔ ∃ before b, m = before ++ [b] ∧ List.Forall₂ R l before ∧ R a b := by
  constructor
  · intro h
    have hreverse : List.Forall₂ R (a :: l.reverse) m.reverse := by
      simpa using List.forall₂_reverse_iff.mpr h
    obtain ⟨b, rest, hb, hrest, hm⟩ := List.forall₂_cons_left_iff.mp hreverse
    refine ⟨rest.reverse, b, by simpa using congrArg List.reverse hm, ?_, hb⟩
    exact List.forall₂_reverse_iff.mp (by simpa using hrest)
  · rintro ⟨before, b, rfl, hbefore, hb⟩
    exact List.rel_append hbefore (.cons hb .nil)

end Success

/-- A path of one word. -/
def Path.word (text : String) : Path := ⟨false, [⟨text⟩]⟩

theorem Path.ident?_eq_some {p : Path} {i : Ident} : p.ident? = some i ↔ p = ⟨false, [i]⟩ := by
  rcases p with ⟨_ | _, _ | ⟨j, _ | ⟨k, rest⟩⟩⟩ <;> simp [Path.ident?]

/-- A path is one word at most. -/
theorem Path.isWord_of_ne {p : Path} {v w : String} (h : p.isWord v = true) (hne : w ≠ v) :
    p.isWord w = false := by
  cases hi : p.ident? with
  | none => simp [isWord, hi]
  | some i =>
    have hv : i.text = v := by simpa [isWord, hi] using h
    simpa [isWord, hi, hv] using hne.symm

namespace Setting

theorem bare_eq_ok {s : Setting} {u : Unit} : s.bare = .ok u ↔ ∃ p, s = .flag p := by
  cases s <;> simp [bare]

theorem value?_eq_ok {s : Setting} {v : Path} : s.value? = .ok v ↔ ∃ p, s = .value p v := by
  cases s <;> simp [value?, eq_comm]

theorem identValue_eq_ok {s : Setting} {i : Ident} :
    s.identValue = .ok i ↔ ∃ p v, s = .value p v ∧ v.ident? = some i ∧ i.isKeyword = false := by
  simp only [identValue, bind_eq_ok, value?_eq_ok, Path.ident?_eq_some]
  constructor
  · rintro ⟨v, ⟨p, rfl⟩, h⟩
    refine ⟨p, v, rfl, ?_⟩
    rcases v with ⟨_ | _, _ | ⟨j, rest⟩⟩
    · cases h
    · by_cases hk : j.isKeyword
      · simp [hk] at h
      · cases rest <;> simp_all
    · cases h
    · cases h
  · rintro ⟨p, _, rfl, rfl, hk⟩
    exact ⟨_, ⟨p, rfl⟩, by simp [hk]⟩

theorem pathValue_eq_ok {s : Setting} {v : Path} :
    s.pathValue = .ok v ↔ ∃ p, s = .value p v ∧ ∀ i ∈ v.segments, i.isSegment = true := by
  simp only [pathValue, bind_eq_ok, value?_eq_ok]
  constructor
  · rintro ⟨w, ⟨p, rfl⟩, h⟩
    split at h
    · cases h
    · next hnone =>
      cases h
      exact ⟨p, rfl, by simpa using hnone⟩
  · rintro ⟨p, rfl, hall⟩
    have hnone : v.segments.find? (fun i => !i.isSegment) = none := by simpa using hall
    exact ⟨v, ⟨p, rfl⟩, by simp [hnone]⟩

/-- The identifier that a setting gives for a word. -/
def identFor? (word : String) : Setting → Option Ident
  | .value p v => if p.isWord word then v.ident? else none
  | _ => none

theorem isWord_of_identFor? {s : Setting} {word : String} {i : Ident} (h : s.identFor? word = some i) :
    s.path.isWord word = true := by
  cases s with
  | value p v =>
    rw [identFor?] at h
    split at h
    · next hp => exact hp
    · cases h
  | _ => cases h

theorem identFor?_of_ne {s : Setting} {word : String} (h : s.path.isWord word = false) :
    s.identFor? word = none := by
  by_contra hne
  obtain ⟨i, hi⟩ := Option.ne_none_iff_exists'.mp hne
  simp [isWord_of_identFor? hi] at h

theorem identValue_eq_ok_of {s : Setting} {word : String} (h : s.path.isWord word = true) {i : Ident} :
    s.identValue = .ok i ↔ s.identFor? word = some i ∧ i.isKeyword = false := by
  rw [identValue_eq_ok]
  cases s with
  | value p v => simp [identFor?, show p.isWord word = true from h]
  | _ => simp [identFor?]

/-- A setting gives an identifier for one of the words, and it is no keyword. -/
def GivesIdent (words : List String) (s : Setting) : Prop :=
  ∃ word ∈ words, ∃ i, s.identFor? word = some i ∧ i.isKeyword = false

theorem givesIdent_iff {s : Setting} {words : List String} {word : String}
    (h : s.path.isWord word = true) :
    s.GivesIdent words ↔ word ∈ words ∧ ∃ i, s.identValue = .ok i := by
  simp only [identValue_eq_ok_of h]
  constructor
  · rintro ⟨w, hw, i, hi, hk⟩
    have heq : w = word := by
      by_contra hne
      rw [identFor?_of_ne (Path.isWord_of_ne h hne)] at hi
      cases hi
    exact ⟨heq ▸ hw, i, heq ▸ hi, hk⟩
  · rintro ⟨hw, i, hi, hk⟩
    exact ⟨word, hw, i, hi, hk⟩

end Setting

/-- What the annotations of a name say, in order. -/
def given (d : Directive) (annotations : List Annotation) : List Setting :=
  annotations.flatMap fun a => if a.name.isWord d.word then a.settings.getD [] else []

/-- The last that settings say of something. -/
def lastOf? {α : Type} (f : Setting → Option α) (settings : List Setting) : Option α :=
  (settings.filterMap f).getLast?

@[simp] theorem lastOf?_nil {α : Type} (f : Setting → Option α) : lastOf? f [] = none := rfl

theorem lastOf?_cons {α : Type} (f : Setting → Option α) (s : Setting) (settings : List Setting) :
    lastOf? f (s :: settings) = (lastOf? f settings).or (f s) := by
  unfold lastOf?
  cases h : f s with
  | none => simp [h]
  | some a =>
    rw [List.filterMap_cons_some h, List.getLast?_cons]
    cases (settings.filterMap f).getLast? <;> rfl

/-- Every annotation of the name has parentheses. -/
def Parenthesized (d : Directive) (annotations : List Annotation) : Prop :=
  ∀ a ∈ annotations, a.name.isWord d.word = true → a.settings.isSome

theorem parenthesized_cons {d : Directive} {first : Annotation} {rest : List Annotation} :
    Parenthesized d (first :: rest) ↔
      (first.name.isWord d.word = true → first.settings.isSome) ∧ Parenthesized d rest :=
  List.forall_mem_cons

/-- Where every annotation of the name has parentheses, what is given is read in order. -/
theorem readSettings_eq {σ : Type} {d : Directive} {apply : σ → Setting → Except DeriveError σ}
    {annotations : List Annotation} (h : Parenthesized d annotations) (a : σ) :
    readSettings d apply a annotations = (given d annotations).foldlM apply a := by
  induction annotations generalizing a with
  | nil => rfl
  | cons first rest ih =>
    obtain ⟨hsettings, hrest⟩ := parenthesized_cons.mp h
    have hgiven : given d (first :: rest) =
        (if first.name.isWord d.word then first.settings.getD [] else []) ++ given d rest := rfl
    rw [readSettings, hgiven, List.foldlM_append]
    by_cases hname : first.name.isWord d.word
    · obtain ⟨settings, hs⟩ := Option.isSome_iff_exists.mp (hsettings hname)
      simp only [hname, if_true, hs, Option.getD_some, ih hrest]
    · simp [hname, ih hrest]

theorem parenthesized_of_eq_ok {σ : Type} {d : Directive} {apply : σ → Setting → Except DeriveError σ}
    {annotations : List Annotation} {a b : σ} (h : readSettings d apply a annotations = .ok b) :
    Parenthesized d annotations := by
  induction annotations generalizing a with
  | nil => exact fun _ h => absurd h List.not_mem_nil
  | cons first rest ih =>
    rw [readSettings] at h
    by_cases hname : first.name.isWord d.word
    · cases hsettings : first.settings with
      | none => simp [hname, hsettings] at h
      | some settings =>
        simp only [hname, if_true, hsettings] at h
        obtain ⟨c, -, hrest⟩ := bind_eq_ok.mp h
        exact parenthesized_cons.mpr ⟨fun _ => by simp [hsettings], ih hrest⟩
    · simp only [hname] at h
      exact parenthesized_cons.mpr ⟨fun hc => absurd hc hname, ih h⟩

/-- Reading of settings that have a condition each, and a known effect. -/
theorem readSettings_eq_ok {σ : Type} {d : Directive} {apply : σ → Setting → Except DeriveError σ}
    {p : Setting → Prop} {g : σ → Setting → σ} (h : ∀ b s c, apply b s = .ok c ↔ p s ∧ c = g b s)
    {annotations : List Annotation} {a b : σ} : readSettings d apply a annotations = .ok b ↔
      (Parenthesized d annotations ∧ ∀ s ∈ given d annotations, p s) ∧
        b = (given d annotations).foldl g a := by
  rw [and_assoc, ← foldlM_eq_ok h]
  refine ⟨fun hb => ?_, fun ⟨hparens, hb⟩ => (readSettings_eq hparens a).trans hb⟩
  have hparens := parenthesized_of_eq_ok hb
  exact ⟨hparens, (readSettings_eq hparens a).symm.trans hb⟩

/-- The identifier that is given for a word. -/
def Item.said? (item : Item) (d : Directive) (word : String) : Option Ident :=
  lastOf? (·.identFor? word) (given d item.annotations)

end BoundTree.Derive
