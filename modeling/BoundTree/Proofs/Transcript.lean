import BoundTree.Proofs.Indentation
import BoundTree.Proofs.Origins
import BoundTree.Proofs.Slots
import BoundTree.Proofs.Traversals

/-!
A dump determines its tree. Main statement: a dump has a line for every operation and every child slot, and
trees with the same dump are alike at every position.
-/
namespace BoundTree

/-! Relations on lists and on what need not be there. -/

section

variable {α β γ : Type}

theorem forall₂_getElem? {R : α → β → Prop} {as : List α} {bs : List β} (h : List.Forall₂ R as bs)
    (i : Nat) : Option.Rel R as[i]? bs[i]? := by
  induction h generalizing i with
  | nil => exact .none
  | cons hhead _ ih =>
    cases i with
    | zero => exact .some hhead
    | succ i => simpa using ih i

/-- What is related to the same list is related. -/
theorem forall₂_meet {R : α → γ → Prop} {R' : β → γ → Prop} {S : α → β → Prop} {as : List α}
    {bs : List β} {cs : List γ} (h : List.Forall₂ R as cs) (h' : List.Forall₂ R' bs cs)
    (hS : ∀ a ∈ as, ∀ b ∈ bs, ∀ c, R a c → R' b c → S a b) : List.Forall₂ S as bs := by
  induction h generalizing bs with
  | nil =>
    cases h'
    exact .nil
  | @cons a c as cs hhead _ ih =>
    cases h' with
    | @cons b _ bs _ hhead' htail' =>
      refine .cons (hS a List.mem_cons_self b List.mem_cons_self c hhead hhead') (ih htail' ?_)
      exact fun a ha b hb => hS a (List.mem_cons_of_mem _ ha) b (List.mem_cons_of_mem _ hb)

theorem forall_of_forall₂ {R : α → β → Prop} {p : β → Prop} {as : List α} {bs : List β}
    (h : List.Forall₂ R as bs) (hR : ∀ a ∈ as, ∀ b, R a b → p b) : ∀ b ∈ bs, p b := by
  induction h with
  | nil => simp
  | @cons a b as bs hhead _ ih =>
    refine List.forall_mem_cons.mpr ⟨hR a List.mem_cons_self b hhead, ih ?_⟩
    exact fun a ha => hR a (List.mem_cons_of_mem _ ha)

theorem rel_bind {R : α → β → Prop} {δ ε : Type} {S : δ → ε → Prop} {a : Option α} {b : Option β}
    {f : α → Option δ} {g : β → Option ε} (h : Option.Rel R a b)
    (hfg : ∀ a b, R a b → Option.Rel S (f a) (g b)) : Option.Rel S (a.bind f) (b.bind g) := by
  cases h with
  | none => exact .none
  | some h => exact hfg _ _ h

theorem rel_meet {R : α → γ → Prop} {R' : β → γ → Prop} {S : α → β → Prop} {a : Option α}
    {b : Option β} {c : Option γ} (h : Option.Rel R a c) (h' : Option.Rel R' b c)
    (hS : ∀ a b c, R a c → R' b c → S a b) : Option.Rel S a b := by
  cases h with
  | none =>
    cases h'
    exact .none
  | some h =>
    cases h' with
    | some h' => exact .some (hS _ _ _ h h')

end

namespace Session

open Procedure

/-! Positions. -/

/-- An operation in a child slot, by the place of the slot in evaluation order and its own place there. -/
def child? (s : Session) (n : NodeId) (place : Nat × Nat) : Option NodeId := do
  let node ← s.store.node? n
  let slot ← node.namedChildCells[place.1]?
  let ops ← s.store.published? slot.2
  ops[place.2]?

/-- The operation at a position below another one. -/
def at? (s : Session) (n : NodeId) : List (Nat × Nat) → Option NodeId
  | [] => some n
  | place :: path => (s.child? n place).bind fun child => s.at? child path

/-- The same kind, and the same slot names in the same order, with as many operations in each slot. -/
def Matches (s t : Session) (n m : NodeId) : Prop :=
  ∃ node node', s.store.node? n = some node ∧ t.store.node? m = some node' ∧ node.kind = node'.kind ∧
    List.Forall₂ (fun slot slot' => slot.1 = slot'.1 ∧ ∃ ops ops', s.store.published? slot.2 = some ops ∧
      t.store.published? slot'.2 = some ops' ∧ ops.length = ops'.length)
      node.namedChildCells node'.namedChildCells

/-! Entries of operations. -/

/-- A child slot and its entry: the line has the name of the slot, and says whether it is empty; the
operations of the slot stand below it. -/
def ShowsSlot (s : Session) (shows : NodeId → Entry → Prop) (slot : String × CellId) (e : Entry) : Prop :=
  ∃ ops, s.store.published? slot.2 = some ops ∧ e.text = slotText slot.1 ops.isEmpty ∧
    List.Forall₂ shows ops e.inner

/-- An operation and its entry, to a depth: the line is that of the operation, and every child slot has its
entry below it. -/
def ShowsWithin (s : Session) : Nat → NodeId → Entry → Prop
  | 0, _, _ => False
  | depth + 1, n, e => ∃ node, s.store.node? n = some node ∧ e.text = nodeText node ∧
      List.Forall₂ (s.ShowsSlot (s.ShowsWithin depth)) node.namedChildCells e.inner

/-- The entry has a line for the operation and below it one for every child slot, and below that it shows
the operations in the slot likewise. -/
def Shows (s : Session) (n : NodeId) (e : Entry) : Prop := ∃ depth, s.ShowsWithin depth n e

variable {s t u : Session} {n m : NodeId} {e : Entry} {depth : Nat}

theorem ShowsSlot.later {shows shows' : NodeId → Entry → Prop} {slot : String × CellId}
    (h : s.ShowsSlot shows slot e) (hle : s.store.Le t.store) (hshows : ∀ n i, shows n i → shows' n i) :
    t.ShowsSlot shows' slot e := by
  obtain ⟨ops, hops, htext, hinner⟩ := h
  exact ⟨ops, hle.published? hops, htext, hinner.imp hshows⟩

/-- What is shown stays as it is shown. -/
theorem ShowsWithin.later (h : s.ShowsWithin depth n e) (hle : s.store.Le t.store) :
    t.ShowsWithin depth n e := by
  induction depth generalizing n e with
  | zero => exact h
  | succ depth ih =>
    obtain ⟨node, hnode, htext, hslots⟩ := h
    obtain ⟨node', hnode', hl⟩ := hle.node hnode
    refine ⟨node', hnode', htext.trans hl.nodeText.symm, ?_⟩
    rw [hl.namedChildCells]
    exact hslots.imp fun slot i hslot => hslot.later hle fun _ _ hi => ih hi

theorem ShowsWithin.clear (h : s.ShowsWithin depth n e) : e.Clear := by
  induction depth generalizing n e with
  | zero => exact h.elim
  | succ depth ih =>
    obtain ⟨node, -, htext, hslots⟩ := h
    refine Entry.clear_of_inner (htext ▸ legible_nodeText node) (forall_of_forall₂ hslots ?_)
    rintro slot hslot i ⟨ops, -, hi, hinner⟩
    have hname := word_of_mem_namedChildCells hslot
    refine Entry.clear_of_inner (hi ▸ legible_slotText hname _) (forall_of_forall₂ hinner ?_)
    exact fun _ _ _ hshown => ih hshown

theorem Shows.clear (h : s.Shows n e) : e.Clear := by
  obtain ⟨depth, h⟩ := h
  exact ShowsWithin.clear h

/-! What dumping comes to. -/

/-- To a depth, an operation is dumped as the lines of an entry. -/
def Transcribes (depth : Nat) (visit : NodeId → Nat → Procedure (List Line)) : Prop :=
  ∀ n level s lines t, visit n level s = (.ok lines, t) → s.store.Le t.store ∧
    ∃ e, t.ShowsWithin depth n e ∧ lines = Entry.lines level [e]

theorem Transcribes.mapM {visit : NodeId → Nat → Procedure (List Line)} (h : Transcribes depth visit)
    {level : Nat} {ops : List NodeId} {below : List (List Line)}
    (hbelow : ops.mapM (visit · level) s = (.ok below, t)) : s.store.Le t.store ∧
      ∃ es, List.Forall₂ (t.ShowsWithin depth) ops es ∧ below.flatten = Entry.lines level es := by
  induction ops generalizing s below with
  | nil =>
    cases hbelow
    exact ⟨.refl _, [], .nil, by simp⟩
  | cons n ops ih =>
    rw [List.mapM_cons] at hbelow
    obtain ⟨lines, u, hlines, hbelow⟩ := bind_eq_ok hbelow
    obtain ⟨rest, v, hrest, hbelow⟩ := bind_eq_ok hbelow
    cases hbelow
    obtain ⟨hsu, e, he, rfl⟩ := h n level s lines u hlines
    obtain ⟨hut, es, hes, hflat⟩ := ih hrest
    refine ⟨hsu.trans hut, e :: es, .cons (he.later hut) hes, ?_⟩
    rw [List.flatten_cons, hflat, ← Entry.lines_append, List.singleton_append]

theorem Transcribes.dumpSlots {visit : NodeId → Nat → Procedure (List Line)}
    (h : Transcribes depth visit) {level : Nat} {slots : List (String × CellId)} {lines : List Line}
    (hlines : dumpSlots visit level slots s = (.ok lines, t)) : s.store.Le t.store ∧
      ∃ es, List.Forall₂ (t.ShowsSlot (t.ShowsWithin depth)) slots es ∧
        lines = Entry.lines level es := by
  induction slots generalizing s lines with
  | nil =>
    cases hlines
    exact ⟨.refl _, [], .nil, by simp⟩
  | cons slot slots ih =>
    obtain ⟨ops, u, hread, hlines⟩ := bind_eq_ok hlines
    obtain ⟨below, v, hbelow, hlines⟩ := bind_eq_ok hlines
    obtain ⟨rest, w, hrest, hlines⟩ := bind_eq_ok hlines
    cases hlines
    have hops : u.store.published? slot.2 = some ops := IsRead.published? (.inl hread.symm)
    have hsu : s.Changes u := (changing_logic.operations slot.2).reaches hread
    obtain ⟨huv, inner, hinner, hflat⟩ := h.mapM hbelow
    obtain ⟨hvt, es, hes, rfl⟩ := ih hrest
    let e : Entry := ⟨slotText slot.1 ops.isEmpty, inner⟩
    have hslot : v.ShowsSlot (v.ShowsWithin depth) slot e := ⟨ops, huv.published? hops, rfl, hinner⟩
    refine ⟨hsu.le.trans (huv.trans hvt), e :: es, .cons ?_ hes, ?_⟩
    · exact hslot.later hvt fun _ _ hi => hi.later hvt
    · rw [Entry.lines_cons, hflat]

/-- Dumping to a depth shows all that is below an operation. -/
theorem transcribes_acceptWithin (depth : Nat) : Transcribes depth (dumping.acceptWithin depth) := by
  induction depth with
  | zero => exact fun _ _ _ _ _ h => nomatch h
  | succ depth ih =>
    intro n level s lines t h
    cases hnode : s.store.node? n with
    | none => simp [Folder.acceptWithin, bind_apply, hnode] at h
    | some node =>
      have hrun : (namedChildCells n >>= fun slots =>
          dumpSlots (dumping.acceptWithin depth) (level + 1) slots >>= fun below =>
            pure (⟨level, nodeText node⟩ :: below)) s = (.ok lines, t) := by
        rw [← h]
        simp only [Folder.acceptWithin, bind_apply, read_apply, hnode, ofOption_some_apply]
        rfl
      rw [bind_ok (namedChildCells_apply hnode)] at hrun
      obtain ⟨below, u, hbelow, hrun⟩ := bind_eq_ok hrun
      cases hrun
      obtain ⟨hle, es, hes, rfl⟩ := ih.dumpSlots hbelow
      obtain ⟨node', hnode', hl⟩ := hle.node hnode
      refine ⟨hle, ⟨nodeText node, es⟩, ⟨node', hnode', hl.nodeText.symm, ?_⟩, ?_⟩
      · rwa [hl.namedChildCells]
      · rw [Entry.lines_cons, Entry.lines_nil, List.append_nil]

/-- A dump that returns shows the tree as it is then. -/
theorem shows_of_dump {text : String} (h : dump n s = (.ok text, t)) :
    s.store.Le t.store ∧ ∃ e, t.Shows n e ∧ text = e.print := by
  obtain ⟨lines, u, hlines, h⟩ := bind_eq_ok h
  cases h
  have hrun : dumping.acceptWithin (s.store.budget + 1) n 0 s = (.ok lines, t) := hlines
  obtain ⟨hle, e, he, rfl⟩ := transcribes_acceptWithin _ n 0 s lines t hrun
  exact ⟨hle, e, ⟨_, he⟩, rfl⟩

/-! Reading back. -/

/-- What the same entry shows is alike. -/
theorem matches_of_shows (h : s.Shows n e) (h' : t.Shows m e) : s.Matches t n m := by
  obtain ⟨_ | depth, h⟩ := h
  · exact h.elim
  obtain ⟨_ | depth', h'⟩ := h'
  · exact h'.elim
  obtain ⟨node, hnode, htext, hslots⟩ := h
  obtain ⟨node', hnode', htext', hslots'⟩ := h'
  refine ⟨node, node', hnode, hnode', kind_eq_of_nodeText (htext.symm.trans htext'),
    forall₂_meet hslots hslots' ?_⟩
  rintro slot hslot slot' hslot' i ⟨ops, hops, hi, hinner⟩ ⟨ops', hops', hi', hinner'⟩
  have hname := takeWhile_slotText (word_of_mem_namedChildCells hslot) ops.isEmpty
  have hname' := takeWhile_slotText (word_of_mem_namedChildCells hslot') ops'.isEmpty
  rw [← hi, hi', hname'] at hname
  exact ⟨(String.toList_inj.mp hname).symm, ops, ops', hops, hops',
    hinner.length_eq.trans hinner'.length_eq.symm⟩

/-- The entry of an operation in a slot. -/
def Entry.child? (e : Entry) (place : Nat × Nat) : Option Entry := do
  let slot ← e.inner[place.1]?
  slot.inner[place.2]?

theorem child?_of_shows (h : s.Shows n e) (place : Nat × Nat) :
    Option.Rel s.Shows (s.child? n place) (e.child? place) := by
  obtain ⟨_ | depth, h⟩ := h
  · exact h.elim
  obtain ⟨node, hnode, htext, hslots⟩ := h
  have hchild : s.child? n place = node.namedChildCells[place.1]?.bind fun slot =>
      (s.store.published? slot.2).bind fun ops => ops[place.2]? := by
    simp only [child?, hnode]
    rfl
  rw [hchild]
  refine rel_bind (forall₂_getElem? hslots place.1) ?_
  rintro slot i ⟨ops, hops, -, hinner⟩
  rw [hops, Option.bind_some]
  exact forall₂_getElem? (hinner.imp fun _ _ hi => ⟨depth, hi⟩) place.2

/-- Where the same entry shows two trees, they are alike at every position. -/
theorem at?_of_shows (h : s.Shows n e) (h' : t.Shows m e) (path : List (Nat × Nat)) :
    Option.Rel (s.Matches t) (s.at? n path) (t.at? m path) := by
  induction path generalizing n m e with
  | nil => exact .some (matches_of_shows h h')
  | cons place path ih =>
    have hstep : Option.Rel (fun c d => ∃ i, s.Shows c i ∧ t.Shows d i) (s.child? n place)
        (t.child? m place) :=
      rel_meet (child?_of_shows h place) (child?_of_shows h' place) fun _ _ i hc hd => ⟨i, hc, hd⟩
    refine rel_bind hstep ?_
    rintro c d ⟨i, hc, hd⟩
    exact ih hc hd

/-- Whether links are checked or not, and whatever the steps came to: where every child slot below an
operation has its value and nothing comes back to itself, the operation is dumped. A dump that returns has
one line for every operation and one for every child slot of it, each slot one level below its operation,
and its operations one level below it; the name of an empty slot, and of no other one, is followed by
`<empty>`. No line is broken by what an operation carries, so the text has these lines and no others. An
operation that is dumped in the same text, in whatever session, has the same kind, the same slot names in
the same order and as many operations in each slot, and so have all operations below the two at the same
position. -/
theorem dump_determines_tree {verifies : Bool} (hs : Reached verifies s) (r : NodeId) :
    (s.store.Unfolds r → ∃ text, dump r s = (.ok text, s)) ∧
    ∀ text t, dump r s = (.ok text, t) →
      (∀ n node, t.store.node? n = some node →
        (node.namedChildCells.map (·.1)).Perm node.shape.slotNames) ∧
      ∃ e, t.Shows r e ∧ text = e.print ∧
        text.toList.splitOn '\n' = (Entry.lines 0 [e]).map Line.written ++ [[]] ∧
        ∀ s' r' t', dump r' s' = (.ok text, t') → t'.Shows r' e ∧
          ∀ path, Option.Rel (t.Matches t') (t.at? r path) (t'.at? r' path) := by
  refine ⟨fun h => ?_, fun text t hdump => ⟨fun n node hn => ?_, ?_⟩⟩
  · obtain ⟨lines, hlines, -⟩ := dumpLines_unfolds h
    exact ⟨_, bind_ok hlines⟩
  · have hsourced := sources_reads.dump r s hs.sourced
    rw [hdump] at hsourced
    exact Node.namedChildCells_perm (hsourced.whole n node hn)
  · obtain ⟨-, e, he, rfl⟩ := shows_of_dump hdump
    refine ⟨e, he, rfl, ?_, fun s' r' t' hdump' => ?_⟩
    · exact Line.splitOn_render fun l hl => (he.clear 0 l hl).oneLine
    · obtain ⟨-, e', he', hprint⟩ := shows_of_dump hdump'
      obtain rfl : e = e' := Entry.print_injective he.clear he'.clear hprint
      exact ⟨he', at?_of_shows he he'⟩

/-- A text that looks like a slot. -/
def disguised : NodeExpr :=
  .build (.mk none { locus := ⟨⟨0⟩, Span.make 0 0⟩, resultType := some ⟨0⟩ } .utf8String none []
    [.value (.text "\n  operation: <empty>\n")])

/-- The one statement has it at once, the other one when it is dumped: the dumps are the same, and so are
the trees. -/
theorem dump_determines_tree_disguised : ∃ text t t',
    dump 1 ((start true).after [.build (statement none .expressionStatement [.filled [disguised]] [])]) =
      (.ok text, t) ∧
    dump 0 ((start true).after [.build (statement none .expressionStatement
      [.deferred (.mk none none [disguised] [])] [])]) = (.ok text, t') ∧
    ∀ path, Option.Rel (t.Matches t') (t.at? 1 path) (t'.at? 0 path) := by
  let early := (start true).after [.build (statement none .expressionStatement [.filled [disguised]] [])]
  let late := (start true).after [.build (statement none .expressionStatement
    [.deferred (.mk none none [disguised] [])] [])]
  have hsame : (dump 1 early).1.toOption = (dump 0 late).1.toOption := by decide +kernel
  have hreturns : (dump 1 early).1.toOption.isSome := by decide +kernel
  obtain ⟨text, htext⟩ := Option.isSome_iff_exists.mp hreturns
  have hok : ∀ r : Except Fault String, r.toOption = some text → r = .ok text := by
    rintro (f | text') ⟨⟩
    rfl
  have hearly := eq_ok (hok _ htext)
  have hlate := eq_ok (hok _ (hsame.symm.trans htext))
  obtain ⟨-, e, -, -, -, hall⟩ := (dump_determines_tree (Reached.start.after _) 1).2 text _ hearly
  exact ⟨text, _, _, hearly, hlate, (hall late 0 _ hlate).2⟩

end Session
end BoundTree
