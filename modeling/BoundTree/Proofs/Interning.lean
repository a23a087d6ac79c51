import BoundTree.Interner
import Mathlib.Data.List.Induction
import Mathlib.Data.List.Nodup

/-!
Interned names over a whole run. A handle comes from the handle that it was cloned from, or is the first on a
table of its own; a table holds the names that were interned through the handles of one origin, each where it
was interned first. Main statement: so it is after every sequence of steps, and so the handles of one origin
share one stable numbering of names that no other handle changes.
-/
namespace BoundTree

/-- A name that comes again is not counted again. -/
theorem eraseDups_append_singleton (l : List String) (x : String) :
    (l ++ [x]).eraseDups = if x ∈ l then l.eraseDups else l.eraseDups ++ [x] := by
  rw [List.eraseDups_append]
  split <;> rename_i h <;> simp [List.removeAll, List.eraseDups_cons, h]

theorem nodup_eraseDups (l : List String) : l.eraseDups.Nodup := by
  induction l using List.reverseRecOn with
  | nil => exact List.nodup_nil
  | append_singleton l x ih =>
    rw [eraseDups_append_singleton]
    split
    · exact ih
    · rename_i hx
      exact List.concat_eq_append ▸ ih.concat fun h => hx (List.mem_eraseDups.mp h)

theorem idxOf_of_isPrefix {l m : List String} (h : l <+: m) {x : String} (hx : x ∈ l) :
    m.idxOf x = l.idxOf x := by
  obtain ⟨rest, rfl⟩ := h
  rw [List.idxOf_append, if_pos hx]

theorem eraseDups_isPrefix (l m : List String) : l.eraseDups <+: (l ++ m).eraseDups := by
  rw [List.eraseDups_append]
  exact List.prefix_append _ _

namespace NameTable

/-- The table of names that were interned one after the other. -/
def ofNames (l : List String) : NameTable := ⟨l.eraseDups.toArray⟩

variable (l : List String)

theorem get?_ofNames (x : String) :
    (ofNames l).get? x = if x ∈ l.eraseDups then some ⟨l.eraseDups.idxOf x⟩ else none := by
  have hfind : (ofNames l).names.findIdx? (· == x) = l.eraseDups.findIdx? (· == x) :=
    List.findIdx?_toArray _ _
  rw [get?, hfind]
  by_cases hx : x ∈ l.eraseDups
  · rw [if_pos hx, List.findIdx?_eq_some_iff_findIdx_eq.mpr ⟨List.idxOf_lt_length_iff.mpr hx, rfl⟩]
    rfl
  · have hnone : l.eraseDups.findIdx? (· == x) = none := by
      refine List.findIdx?_eq_none_iff.mpr fun y hy => ?_
      simpa using fun h : y = x => hx (h ▸ hy)
    rw [if_neg hx, hnone]
    rfl

theorem intern_ofNames (x : String) :
    (ofNames l).intern x = (⟨(l.eraseDups ++ [x]).idxOf x⟩, ofNames (l ++ [x])) := by
  rw [intern, get?_ofNames, List.idxOf_append, ofNames, ofNames, eraseDups_append_singleton]
  by_cases hx : x ∈ l
  · rw [if_pos hx, if_pos (List.mem_eraseDups.mpr hx), if_pos (List.mem_eraseDups.mpr hx)]
  · have hx' : x ∉ l.eraseDups := fun h => hx (List.mem_eraseDups.mp h)
    rw [if_neg hx, if_neg hx', if_neg hx']
    simp

@[simp] theorem resolve?_ofNames (s : Symbol) : (ofNames l).resolve? s = l.eraseDups[s.index]? :=
  List.getElem?_toArray

@[simp] theorem size_ofNames : (ofNames l).size = l.eraseDups.length := rfl

end NameTable

namespace Interners

/-! What steps say of handles and names. -/

/-- The origins of all handles after a step, given those before it. -/
def nextOrigins (os : List Nat) : Nat × InternerStep → List Nat
  | (a, .clone) => os ++ [os[a]?.getD os.length]
  | (_, .create) => os ++ [os.length]
  | _ => os

/-- The handle that each handle comes from. At first there is one. -/
def origins (steps : List (Nat × InternerStep)) : List Nat := steps.foldl nextOrigins [0]

/-- The name that a step interns through a handle of the origin. -/
def said (r : Nat) (os : List Nat) : Nat × InternerStep → List String
  | (a, .intern x) => if os[a]? = some r then [x] else []
  | _ => []

/-- The names that steps intern through handles of the origin, one after the other. -/
def heard (r : Nat) (os : List Nat) : List (Nat × InternerStep) → List String
  | [] => []
  | e :: steps => said r os e ++ heard r (nextOrigins os e) steps

/-- The names that handles of the origin know after steps, the first interned first. -/
def known (r : Nat) (steps : List (Nat × InternerStep)) : List String := (heard r [0] steps).eraseDups

/-- What a step answers through a handle that knows these names, when there are handles of these origins. -/
def answerTo (os : List Nat) (names : List String) : InternerStep → InternerAnswer
  | .intern x => .interned ⟨(names ++ [x]).idxOf x⟩
  | .get x => .found (if x ∈ names then some ⟨names.idxOf x⟩ else none)
  | .resolve s =>
    match names[s.index]? with
    | some x => .name (some x)
    | none => .fault .outOfBounds
  | .resolveIfPresent s => .name names[s.index]?
  | .size => .number names.length
  | .isEmpty => .truth (names.length == 0)
  | .clone | .create => .number os.length

/-- A step that looks something up. -/
def reads : InternerStep → Bool
  | .intern _ | .clone | .create => false
  | _ => true

/-- The interners after steps, unless one of them is on a handle that there is not. -/
def after? (p : Interners) : List (Nat × InternerStep) → Option Interners
  | [] => some p
  | (a, e) :: steps => do
    let (_, p) ← p.step a e
    p.after? steps

/-- The handles have these origins, the handles of one origin lead to one table, which is in the place that is
given for the origin, and it holds the names that were interned through them. -/
structure Keeps (os : List Nat) (names : Nat → List String) (place : Nat → Nat) (p : Interners) : Prop where
  handles : p.handles = (os.map place).toArray
  old : ∀ r ∈ os, r < os.length
  quiet : ∀ r, os.length ≤ r → names r = []
  apart : ∀ r ∈ os, ∀ s ∈ os, place r = place s → r = s
  table : ∀ r ∈ os, p.tables[place r]? = some (.ofNames (names r))

variable {os : List Nat} {names : Nat → List String} {place : Nat → Nat} {p : Interners}

theorem keeps_start : Keeps [0] (fun _ => []) id {} where
  handles := rfl
  old := by simp
  quiet _ _ := rfl
  apart := by simp
  table := by simp [NameTable.ofNames]

namespace Keeps

theorem size (h : Keeps os names place p) : p.handles.size = os.length := by
  rw [h.handles, List.size_toArray, List.length_map]

theorem handle? (h : Keeps os names place p) (a : Nat) : p.handles[a]? = os[a]?.map place := by
  rw [h.handles, List.getElem?_toArray, List.getElem?_map]

/-- There is a handle for every origin, and no other. -/
theorem table? (h : Keeps os names place p) (a : Nat) :
    p.table? a = os[a]?.map fun r => .ofNames (names r) := by
  rw [Interners.table?, h.handle?]
  cases ha : os[a]? with
  | none => rfl
  | some r => exact h.table r (List.mem_of_getElem? ha)

theorem congr (h : Keeps os names place p) {names' : Nat → List String} (hnames : ∀ r, names' r = names r) :
    Keeps os names' place p := by
  rwa [show names' = names from funext hnames]

/-- A name that is interned through a handle goes to the names of its origin. -/
theorem intern (h : Keeps os names place p) {a r : Nat} (ha : os[a]? = some r) (x : String) :
    Keeps os (fun s => names s ++ said s os (a, .intern x)) place
      { p with tables := p.tables.setIfInBounds (place r) (.ofNames (names r ++ [x])) } where
  handles := h.handles
  old := h.old
  quiet s hs := by
    have hne : r ≠ s := Nat.ne_of_lt (Nat.lt_of_lt_of_le (h.old r (List.mem_of_getElem? ha)) hs)
    simp [said, ha, hne, h.quiet s hs]
  apart := h.apart
  table s hs := by
    have hr := List.mem_of_getElem? ha
    have hbefore := h.table s hs
    rw [Array.getElem?_setIfInBounds, said, ha]
    -- the place of an origin is its own, so only the names of one origin change
    by_cases hrs : r = s
    · have hlt : place s < p.tables.size := (Array.getElem?_eq_some_iff.mp hbefore).1
      simp [hrs, hlt]
    · have hplace : place r ≠ place s := fun hplace => hrs (h.apart r hr s hs hplace)
      simpa [hrs, hplace] using hbefore

/-- A clone comes from where the handle comes from that is cloned. -/
theorem clone (h : Keeps os names place p) {r : Nat} (hr : r ∈ os) :
    Keeps (os ++ [r]) names place { p with handles := p.handles.push (place r) } := by
  have hold : ∀ s ∈ os ++ [r], s ∈ os := fun s hs =>
    (List.mem_append.mp hs).elim id fun hs => List.mem_singleton.mp hs ▸ hr
  constructor
  · simp [h.handles]
  · exact fun s hs => Nat.lt_of_lt_of_le (h.old s (hold s hs)) (by simp)
  · exact fun s hs => h.quiet s (Nat.le_trans (by simp) hs)
  · exact fun s hs s' hs' => h.apart s (hold s hs) s' (hold s' hs')
  · exact fun s hs => h.table s (hold s hs)

/-- A handle on a new table comes from itself, and nothing was interned through it. -/
theorem create (h : Keeps os names place p) :
    Keeps (os ++ [os.length]) names (fun r => if r = os.length then p.tables.size else place r)
      p.create.2 := by
  have hplace : ∀ r ∈ os, (if r = os.length then p.tables.size else place r) = place r := fun r hr =>
    if_neg (Nat.ne_of_lt (h.old r hr))
  have hlt : ∀ r ∈ os, place r < p.tables.size := fun r hr =>
    (Array.getElem?_eq_some_iff.mp (h.table r hr)).1
  have hcases : ∀ r ∈ os ++ [os.length], r ∈ os ∨ r = os.length := fun r hr =>
    (List.mem_append.mp hr).imp_right List.mem_singleton.mp
  constructor
  · rw [List.map_append, List.map_congr_left hplace]
    simp [Interners.create, h.handles]
  · intro r hr
    rw [List.length_append, List.length_singleton]
    rcases hcases r hr with hr | rfl
    · exact Nat.lt_succ_of_lt (h.old r hr)
    · exact Nat.lt_succ_self _
  · exact fun r hr => h.quiet r (Nat.le_trans (by simp) hr)
  · intro r hr s hs hsame
    rcases hcases r hr with hr | rfl <;> rcases hcases s hs with hs | rfl
    · rw [hplace r hr, hplace s hs] at hsame
      exact h.apart r hr s hs hsame
    · rw [hplace r hr, if_pos rfl] at hsame
      exact absurd hsame (Nat.ne_of_lt (hlt r hr))
    · rw [hplace s hs, if_pos rfl] at hsame
      exact absurd hsame.symm (Nat.ne_of_lt (hlt s hs))
    · rfl
  · intro r hr
    rcases hcases r hr with hr | rfl
    · rw [hplace r hr, ← h.table r hr, Interners.create, Array.getElem?_push,
        if_neg (Nat.ne_of_lt (hlt r hr))]
    · rw [if_pos rfl, h.quiet _ (Nat.le_refl _), Interners.create, Array.getElem?_push_size]
      rfl

/-- A step through a handle that there is answers what is told, and what is told stays true. -/
theorem step (h : Keeps os names place p) {a r : Nat} (ha : os[a]? = some r) (e : InternerStep) :
    ∃ place' q, p.step a e = some (answerTo os (names r).eraseDups e, q) ∧
        Keeps (nextOrigins os (a, e)) (fun s => names s ++ said s os (a, e)) place' q := by
  have htable : p.table? a = some (.ofNames (names r)) := by rw [h.table?, ha, Option.map_some]
  have hhandle : p.handles[a]? = some (place r) := by rw [h.handle?, ha, Option.map_some]
  have hplace : p.tables[place r]? = some (.ofNames (names r)) := h.table r (List.mem_of_getElem? ha)
  have hquiet : ∀ {e}, (∀ s, said s os (a, e) = []) →
      ∀ {os' place' q}, Keeps os' names place' q →
        Keeps os' (fun s => names s ++ said s os (a, e)) place' q := by
    intro e hsaid os' place' q hq
    exact hq.congr fun s => by rw [hsaid, List.append_nil]
  cases e with
  | intern x =>
    refine ⟨_, _, ?_, h.intern ha x⟩
    simp [Interners.step, Interners.intern, htable, hhandle, hplace, NameTable.intern_ofNames, answerTo]
  | get | resolveIfPresent | size | isEmpty =>
    refine ⟨_, _, ?_, hquiet (fun _ => rfl) h⟩
    simp [Interners.step, htable, NameTable.get?_ofNames, answerTo]
  | resolve s =>
    refine ⟨_, _, ?_, hquiet (fun _ => rfl) h⟩
    simp only [Interners.step, Interners.resolve, htable, answerTo, Option.bind_eq_bind, Option.bind_some,
      NameTable.resolve?_ofNames]
    cases (names r).eraseDups[s.index]? <;> rfl
  | clone =>
    have hclone := h.clone (List.mem_of_getElem? ha)
    rw [show os ++ [r] = nextOrigins os (a, .clone) by rw [nextOrigins, ha, Option.getD_some]] at hclone
    refine ⟨_, _, ?_, hquiet (fun _ => rfl) hclone⟩
    simp [Interners.step, Interners.clone, htable, hhandle, h.size, answerTo]
  | create =>
    refine ⟨_, _, ?_, hquiet (fun _ => rfl) h.create⟩
    simp [Interners.step, Interners.create, htable, h.size, answerTo]

/-- There is no step through a handle that there is not. -/
theorem step_eq_none (h : Keeps os names place p) {a : Nat} (ha : os[a]? = none) (e : InternerStep) :
    p.step a e = none := by
  rw [Interners.step, h.table?, ha]
  rfl

/-- So it stays after every sequence of steps. -/
theorem after (h : Keeps os names place p) {steps : List (Nat × InternerStep)} {q : Interners}
    (hq : p.after? steps = some q) :
    ∃ place', Keeps (steps.foldl nextOrigins os) (fun r => names r ++ heard r os steps) place' q := by
  induction steps generalizing os names place p with
  | nil =>
    obtain rfl : p = q := Option.some.inj hq
    exact ⟨place, h.congr fun r => List.append_nil _⟩
  | cons e steps ih =>
    obtain ⟨a, e⟩ := e
    cases ha : os[a]? with
    | none => simp [after?, h.step_eq_none ha] at hq
    | some r =>
      obtain ⟨place₁, p₁, hstep, hkeeps⟩ := h.step ha e
      rw [after?, hstep] at hq
      obtain ⟨place₂, hafter⟩ := ih hkeeps hq
      exact ⟨place₂, hafter.congr fun s => by rw [heard, List.append_assoc]⟩

end Keeps

/-! Runs one after the other. -/

theorem isPrefix_nextOrigins (os : List Nat) (e : Nat × InternerStep) : os <+: nextOrigins os e := by
  obtain ⟨a, e⟩ := e
  cases e <;> simp [nextOrigins]

theorem heard_append (r : Nat) (os : List Nat) (steps later : List (Nat × InternerStep)) :
    heard r os (steps ++ later) = heard r os steps ++ heard r (steps.foldl nextOrigins os) later := by
  induction steps generalizing os with
  | nil => rfl
  | cons e steps ih => rw [List.cons_append, heard, heard, ih, List.append_assoc, List.foldl_cons]

theorem after?_append (steps later : List (Nat × InternerStep)) :
    p.after? (steps ++ later) = (p.after? steps).bind fun q => q.after? later := by
  induction steps generalizing p with
  | nil => rfl
  | cons e steps ih =>
    obtain ⟨a, e⟩ := e
    rw [List.cons_append, after?, after?]
    cases p.step a e with
    | none => rfl
    | some answered => exact ih

theorem known_isPrefix (r : Nat) (steps later : List (Nat × InternerStep)) :
    known r steps <+: known r (steps ++ later) := by
  rw [known, known, heard_append]
  exact eraseDups_isPrefix _ _

/-- What is known of the handles after steps from the start. -/
theorem keeps_after {steps : List (Nat × InternerStep)} (hp : ({} : Interners).after? steps = some p) :
    ∃ place, Keeps (origins steps) (fun r => heard r [0] steps) place p := by
  obtain ⟨place, h⟩ := keeps_start.after hp
  exact ⟨place, h⟩

/-- A step that looks something up changes nothing. -/
theorem step_reads {a : Nat} {e : InternerStep} (he : reads e = true) {answer : InternerAnswer} {q : Interners}
    (h : p.step a e = some (answer, q)) : q = p := by
  cases e with
  | intern | clone | create => cases he
  | get | resolveIfPresent | size | isEmpty =>
    simp only [step, Option.bind_eq_bind, Option.bind_eq_some_iff, Option.pure_def, Option.some.injEq,
      Prod.mk.injEq] at h
    obtain ⟨-, -, -, rfl⟩ := h
    rfl
  | resolve s =>
    simp only [step, Option.bind_eq_bind, Option.bind_eq_some_iff] at h
    obtain ⟨-, -, looked, -, h⟩ := h
    cases looked <;> (cases h; rfl)

/-- A step through one handle leaves the tables of all handles of other origins. -/
theorem Keeps.step_table? (h : Keeps os names place p) {a r : Nat} (ha : os[a]? = some r) {e : InternerStep}
    {answer : InternerAnswer} {q : Interners} (hq : p.step a e = some (answer, q)) {b s : Nat}
    (hb : os[b]? = some s) (hs : s ≠ r) : q.table? b = p.table? b := by
  obtain ⟨place', q', hstep, hkeeps⟩ := h.step ha e
  obtain ⟨-, rfl⟩ : _ ∧ q' = q := by simpa [hstep] using hq
  have hb' : (nextOrigins os (a, e))[b]? = some s := by
    obtain ⟨more, hmore⟩ := isPrefix_nextOrigins os (a, e)
    rw [← hmore, List.getElem?_append_left (List.getElem?_eq_some_iff.mp hb).1, hb]
  have hsaid : said s os (a, e) = [] := by
    cases e <;> simp [said, ha, hs.symm]
  rw [hkeeps.table?, h.table?, hb, hb', Option.map_some, Option.map_some, hsaid, List.append_nil]

/-- What a step answers after steps from the start, through a handle of the origin. -/
theorem step_after {steps : List (Nat × InternerStep)} (hp : ({} : Interners).after? steps = some p)
    {a r : Nat} (ha : (origins steps)[a]? = some r) (e : InternerStep) :
    ∃ q, p.step a e = some (answerTo (origins steps) (known r steps) e, q) := by
  obtain ⟨place, h⟩ := keeps_after hp
  obtain ⟨-, q, hstep, -⟩ := h.step ha e
  exact ⟨q, hstep⟩

/-- What a lookup answers. -/
theorem lookup_after {steps : List (Nat × InternerStep)} (hp : ({} : Interners).after? steps = some p)
    {a r : Nat} (ha : (origins steps)[a]? = some r) {e : InternerStep} (he : reads e = true) :
    p.step a e = some (answerTo (origins steps) (known r steps) e, p) := by
  obtain ⟨q, hstep⟩ := step_after hp ha e
  obtain rfl := step_reads he hstep
  exact hstep

/-- A name that is known gets its place, a new one the place behind all others. -/
theorem symbol_after {steps : List (Nat × InternerStep)} (hp : ({} : Interners).after? steps = some p)
    {a r : Nat} (ha : (origins steps)[a]? = some r) {x : String} {s : Symbol} {q : Interners}
    (hx : p.step a (.intern x) = some (.interned s, q)) : s = ⟨(known r steps ++ [x]).idxOf x⟩ := by
  obtain ⟨q', hstep⟩ := step_after hp ha (.intern x)
  obtain ⟨hs, -⟩ : InternerAnswer.interned ⟨(known r steps ++ [x]).idxOf x⟩ = .interned s ∧ q' = q := by
    simpa [hstep, answerTo] using hx
  exact (InternerAnswer.interned.inj hs).symm

/-- The symbol that a name is given is its place among the names that are known then and at any later time. -/
theorem interned_at {steps : List (Nat × InternerStep)} (hp : ({} : Interners).after? steps = some p)
    {a r : Nat} (ha : (origins steps)[a]? = some r) {x : String} {s : Symbol} {q : Interners}
    (hx : p.step a (.intern x) = some (.interned s, q)) (later : List (Nat × InternerStep)) :
    x ∈ known r (steps ++ (a, .intern x) :: later) ∧
      s.index = (known r (steps ++ (a, .intern x) :: later)).idxOf x := by
  obtain rfl := symbol_after hp ha hx
  have hsaid : known r (steps ++ [(a, .intern x)]) = (heard r [0] steps ++ [x]).eraseDups := by
    have ha' : (steps.foldl nextOrigins [0])[a]? = some r := ha
    rw [known, heard_append, heard, heard, said, if_pos ha', List.append_nil]
  have hmem : x ∈ known r (steps ++ [(a, .intern x)]) := by
    rw [hsaid, List.mem_eraseDups]
    exact List.mem_append_right _ (List.mem_singleton_self x)
  have hfirst : (known r steps ++ [x]).idxOf x = (known r (steps ++ [(a, .intern x)])).idxOf x := by
    rw [hsaid, eraseDups_append_singleton, known]
    split
    · rename_i hold
      exact List.idxOf_append_of_mem (List.mem_eraseDups.mpr hold)
    · rfl
  have hstays : known r (steps ++ [(a, .intern x)]) <+: known r (steps ++ (a, .intern x) :: later) := by
    have hlater := known_isPrefix r (steps ++ [(a, .intern x)]) later
    rwa [List.append_assoc, List.singleton_append] at hlater
  exact ⟨hstays.subset hmem, hfirst.trans (idxOf_of_isPrefix hstays hmem).symm⟩

end Interners
end BoundTree
