import BoundTree.Proofs.OneLine

/-!
Lines that are indented by how deep they stand. Main statements: the lines can be read back from the text
that they make, and from the lines what stands below what.
-/
namespace BoundTree.Session

open Text

namespace Line

/-- The characters of a line, without its end. -/
def written (l : Line) : List Char := List.replicate (2 * l.level) ' ' ++ l.text.toList

theorem toList_render (l : Line) : l.render.toList = l.written ++ ['\n'] := by
  simp [render, written]

/-- The text begins where the blanks end. -/
theorem dropWhile_written {l : Line} (h : Legible l.text) :
    l.written.dropWhile (· = ' ') = l.text.toList := by
  have htext : l.text.toList.dropWhile (· = ' ') = l.text.toList := by
    cases hcs : l.text.toList with
    | nil => rfl
    | cons c cs =>
      have hc : c ≠ ' ' := fun heq => h.flush (by rw [hcs, heq]; rfl)
      rw [List.dropWhile_cons_of_neg (by simpa using hc)]
  rw [written, List.dropWhile_append_of_pos, htext]
  intro c hc
  exact decide_eq_true (List.eq_of_mem_replicate hc)

theorem written_injective {l l' : Line} (h : Legible l.text) (h' : Legible l'.text)
    (heq : l.written = l'.written) : l = l' := by
  have htext : l.text.toList = l'.text.toList := by
    rw [← dropWhile_written h, heq, dropWhile_written h']
  have hlength := congrArg List.length heq
  simp only [written, List.length_append, List.length_replicate, htext] at hlength
  have hlevel : l.level = l'.level := by omega
  calc l = ⟨l.level, l.text⟩ := rfl
    _ = ⟨l'.level, l'.text⟩ := by rw [hlevel, String.toList_inj.mp htext]

theorem splitOn_render {ls : List Line} (h : ∀ l ∈ ls, OneLine l.text) :
    (String.join (ls.map render)).toList.splitOn '\n' = ls.map written ++ [[]] := by
  induction ls with
  | nil => rfl
  | cons l ls ih =>
    have hline : ∀ c ∈ l.written, (c == '\n') = false := by
      intro c hc
      refine beq_false_of_ne ?_
      rintro rfl
      rcases List.mem_append.mp hc with hblank | htext
      · exact absurd (List.eq_of_mem_replicate hblank) (by decide)
      · exact h l List.mem_cons_self htext
    have hrest := ih fun k hk => h k (List.mem_cons_of_mem l hk)
    have hchars : (String.join ((l :: ls).map render)).toList =
        l.written ++ '\n' :: (String.join (ls.map render)).toList := by
      rw [List.map_cons, String.join_cons, String.toList_append, toList_render, List.append_assoc]
      rfl
    rw [List.splitOn_eq_splitOnP] at hrest ⊢
    rw [hchars, List.splitOnP_append_cons_of_forall_mem hline '\n' rfl, hrest]
    rfl

/-- The lines can be read back. -/
theorem render_injective {ls ls' : List Line} (h : ∀ l ∈ ls, Legible l.text)
    (h' : ∀ l ∈ ls', Legible l.text) (heq : String.join (ls.map render) = String.join (ls'.map render)) :
    ls = ls' := by
  have hwritten : ls.map written = ls'.map written := by
    have hlines := splitOn_render fun l hl => (h l hl).oneLine
    rw [heq, splitOn_render fun l hl => (h' l hl).oneLine] at hlines
    exact (List.append_cancel_right hlines).symm
  clear heq
  induction ls generalizing ls' with
  | nil => exact (List.map_eq_nil_iff.mp hwritten.symm).symm
  | cons l ls ih =>
    cases ls' with
    | nil => cases hwritten
    | cons l' ls' =>
      obtain ⟨hhead, htail⟩ := List.cons.inj hwritten
      obtain rfl := written_injective (h l List.mem_cons_self) (h' l' List.mem_cons_self) hhead
      have hrest := ih (fun k hk => h k (List.mem_cons_of_mem l hk))
        (fun k hk => h' k (List.mem_cons_of_mem l hk)) htail
      rw [hrest]

end Line

/-- A line, and the entries that stand below it. -/
structure Entry where
  text : String
  inner : List Entry

namespace Entry

/-- The lines of entries, from a level on. -/
def lines : Nat → List Entry → List Line
  | _, [] => []
  | level, ⟨text, inner⟩ :: entries => ⟨level, text⟩ :: lines (level + 1) inner ++ lines level entries

@[simp] theorem lines_nil (level : Nat) : lines level [] = [] := by rw [lines]

theorem lines_cons (level : Nat) (e : Entry) (entries : List Entry) : lines level (e :: entries) =
    ⟨level, e.text⟩ :: lines (level + 1) e.inner ++ lines level entries := by
  cases e
  rw [lines]

theorem lines_append (level : Nat) (a b : List Entry) :
    lines level (a ++ b) = lines level a ++ lines level b := by
  induction a with
  | nil => rw [lines_nil, List.nil_append, List.nil_append]
  | cons e a ih => rw [List.cons_append, lines_cons, lines_cons, ih, List.append_assoc]

/-- All that stands in the entry is legible. -/
def Clear (e : Entry) : Prop := ∀ level, ∀ l ∈ lines level [e], Legible l.text

theorem legible_of_clear {entries : List Entry} (h : ∀ e ∈ entries, e.Clear) (level : Nat) :
    ∀ l ∈ lines level entries, Legible l.text := by
  induction entries with
  | nil => simp
  | cons e entries ih =>
    intro l hl
    rw [← List.singleton_append, lines_append, List.mem_append] at hl
    rcases hl with hl | hl
    · exact h e List.mem_cons_self level l hl
    · exact ih (fun e he => h e (List.mem_cons_of_mem _ he)) l hl

theorem clear_of_inner {e : Entry} (htext : Legible e.text) (h : ∀ i ∈ e.inner, i.Clear) : e.Clear := by
  intro level l hl
  rw [lines_cons, lines_nil, List.append_nil] at hl
  rcases List.mem_cons.mp hl with rfl | hl
  · exact htext
  · exact legible_of_clear h (level + 1) l hl

/-- Entries begin at their level. -/
theorem level_of_mem_head? {level bound : Nat} {rest : List Line} (hlevel : level < bound)
    (h : ∀ l ∈ rest.head?, l.level < bound) (entries : List Entry) :
    ∀ l ∈ (lines level entries ++ rest).head?, l.level < bound := by
  cases entries with
  | nil => rwa [lines_nil, List.nil_append]
  | cons e entries =>
    rw [lines_cons]
    intro l hl
    obtain rfl : _ = l := Option.some.inj hl
    exact hlevel

/-- Where a line stands less deep, no entry begins. -/
theorem ne_lines_append {level : Nat} {rest : List Line} (h : ∀ l ∈ rest.head?, l.level < level)
    (e : Entry) (entries : List Entry) (rest' : List Line) :
    rest ≠ lines level (e :: entries) ++ rest' := by
  rintro rfl
  rw [lines_cons] at h
  exact Nat.lt_irrefl level (h _ rfl)

/-- What follows a line at a deeper level stands below it, so entries can be read back from their lines. -/
theorem lines_append_injective {level : Nat} {entries entries' : List Entry} {rest rest' : List Line}
    (h : ∀ l ∈ rest.head?, l.level < level) (h' : ∀ l ∈ rest'.head?, l.level < level)
    (heq : lines level entries ++ rest = lines level entries' ++ rest') :
    entries = entries' ∧ rest = rest' := by
  induction level, entries using lines.induct generalizing entries' rest rest' with
  | case1 level =>
    rw [lines_nil, List.nil_append] at heq
    cases entries' with
    | nil =>
      rw [lines_nil, List.nil_append] at heq
      exact ⟨rfl, heq⟩
    | cons e entries' => exact absurd heq (ne_lines_append h e entries' rest')
  | case2 level text inner entries hinner hentries =>
    cases entries' with
    | nil =>
      rw [lines_nil, List.nil_append] at heq
      exact absurd heq.symm (ne_lines_append h' _ entries rest)
    | cons e entries' =>
      obtain ⟨text', inner'⟩ := e
      rw [lines_cons, lines_cons, List.cons_append, List.cons_append, List.append_assoc,
        List.append_assoc] at heq
      obtain ⟨hline, hbelow⟩ := List.cons.inj heq
      have hafter : ∀ l ∈ rest.head?, l.level < level + 1 := fun l hl => Nat.lt_succ_of_lt (h l hl)
      have hafter' : ∀ l ∈ rest'.head?, l.level < level + 1 := fun l hl => Nat.lt_succ_of_lt (h' l hl)
      obtain ⟨rfl, hfollowing⟩ := hinner (level_of_mem_head? (Nat.lt_succ_self level) hafter entries)
        (level_of_mem_head? (Nat.lt_succ_self level) hafter' entries') hbelow
      obtain ⟨rfl, rfl⟩ := hentries h h' hfollowing
      obtain rfl : text = text' := congrArg Line.text hline
      exact ⟨rfl, rfl⟩

/-- The text of an entry. -/
def print (e : Entry) : String := String.join ((lines 0 [e]).map Line.render)

/-- A clear entry can be read back from its text. -/
theorem print_injective {e e' : Entry} (h : e.Clear) (h' : e'.Clear) (heq : e.print = e'.print) :
    e = e' := by
  have hlines := Line.render_injective (h 0) (h' 0) heq
  have hends : ∀ l ∈ ([] : List Line).head?, l.level < 0 := by simp
  have hentries := lines_append_injective hends hends (congrArg (· ++ []) hlines)
  exact List.singleton_inj.mp hentries.1

end Entry
end BoundTree.Session
