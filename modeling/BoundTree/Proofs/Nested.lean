import BoundTree.Proofs.Race

/-!
What a read of a slot does to the others. Its producer may come to read the children of an operation first,
and their producers those of others. Main statement: a slot that is not read on the way keeps what it held,
and the slot itself, if it is not, has had one run more at the end.
-/
namespace BoundTree

/-- What a slot holds once it has been read, with one run if need be. -/
def Content.readOnce (a : Content) (ops : List NodeId) : Content :=
  match a with
  | .deferred p runs finished none => .deferred p (runs + 1) ((runs + 1) :: finished) (some ops)
  | a => a

namespace Session

open Procedure

/-- The producer of a slot, in its first run, comes to read another slot in this session. -/
inductive Enters (depth : Nat) (c : CellId) (s : Session) : CellId → Session → Prop
  | intro {p : Producer} {finished : List Nat} {m : NodeId} {before after : List CellId} {e : CellId}
      {u : Session} (waiting : s.store.content? c = some (.deferred p 0 finished none))
      (names : p.reenter.bind (s.started c p).node? = some m)
      (split : ((s.entering c p m).store.node? m).elim [] (·.childCells) = before ++ e :: after)
      (passed : enumerate (readCell depth) before (s.entering c p m) = (.ok (), u)) : Enters depth c s e u

/-- While a slot is read, its producer comes to read another one, or one of those that it reads does. -/
inductive Nests : Nat → CellId → Session → CellId → Prop
  | entered {depth : Nat} {c e : CellId} {s u : Session} (h : s.Enters depth c e u) :
      Nests (depth + 1) c s e
  | deeper {depth : Nat} {c e d : CellId} {s u : Session} (h : s.Enters depth c e u)
      (inner : Nests depth e u d) : Nests (depth + 1) c s d

variable {s t : Session} {c d : CellId} {depth : Nat}

theorem content?_of_grows (h : s.store.Grows t.store) (hd : d < s.store.cells.size) :
    t.store.content? d = s.store.content? d := by
  have hcell : s.store.cell? d = some s.store.cells[d] := Array.getElem?_eq_getElem hd
  have hcontent : s.store.content? d = some s.store.cells[d].content := by simp [Store.content?, hcell]
  rw [hcontent, h.content? hcontent]

/-- Slots that each leave a slot alone leave it alone one after the other. -/
theorem content?_enumerate {cells : List CellId} {r : Except Fault Unit}
    (hread : ∀ before e after u, cells = before ++ e :: after →
      enumerate (readCell depth) before s = (.ok (), u) → s.Changes u → ∀ x v,
        readCell depth e u = (x, v) → v.store.content? d = u.store.content? d)
    (h : enumerate (readCell depth) cells s = (r, t)) : t.store.content? d = s.store.content? d := by
  induction cells generalizing s with
  | nil =>
    cases h
    rfl
  | cons e cells ih =>
    rcases hfirst : readCell depth e s with ⟨f | ops, u⟩
    · have hkept := hread [] e cells s rfl rfl .refl _ _ hfirst
      rw [enumerate, bind_error hfirst] at h
      cases h
      exact hkept
    · have hkept := hread [] e cells s rfl rfl .refl _ _ hfirst
      rw [enumerate, bind_ok hfirst] at h
      refine (ih (fun before e' after v hsplit hbefore huv => ?_) h).trans hkept
      refine hread (e :: before) e' after v (by rw [hsplit, List.cons_append]) ?_
        ((changes_of_readCell hfirst).trans huv)
      rw [enumerate, bind_ok hfirst]
      exact hbefore

section Produce

variable {p : Producer} {runs : Nat} {finished : List Nat}
  (hwaiting : s.store.content? c = some (.deferred p runs finished none))
  (hread : ∀ e u, s.Enters depth c e u → s.Changes u → ∀ x v, readCell depth e u = (x, v) →
    v.store.content? d = u.store.content? d)
include hwaiting hread

/-- Before its first value, a producer leaves a slot alone that it does not come to. -/
theorem content?_prepare {r : Except Fault Unit}
    (h : prepare (readCell depth) p (runs + 1) (s.started c p) = (r, t)) :
    t.store.content? d = (s.started c p).store.content? d := by
  rcases Nat.eq_zero_or_pos runs with rfl | hlater
  · cases hm : p.reenter.bind (s.started c p).node? with
    | none =>
      have hskip : prepare (readCell depth) p 1 (s.started c p) = (.ok (), s.started c p) := by
        unfold prepare
        rw [bind_ok (read_apply _), hm]
        rfl
      cases h.symm.trans hskip
      rfl
    | some m =>
      -- the slots of the operation are read one after the other
      have hentering : s.Changes (s.entering c p m) :=
        (s.changes_started c p).trans (Changes.names rfl rfl rfl)
      have hcells : (hold (.node m) >>= fun _ => childCells m >>= enumerate (readCell depth))
          (s.started c p) = enumerate (readCell depth)
            (((s.entering c p m).store.node? m).elim [] (·.childCells)) (s.entering c p m) := by
        rw [entering, ← (s.started_rest c p).2.2]
        rfl
      rw [prepare_first hm, releasing_apply, hcells] at h
      rcases hall : enumerate (readCell depth)
        (((s.entering c p m).store.node? m).elim [] (·.childCells)) (s.entering c p m) with ⟨x, u⟩
      rw [hall] at h
      obtain ⟨-, rfl⟩ := Prod.mk.inj h
      have hkept := content?_enumerate (fun before e after u hsplit hbefore hu =>
        hread e u (.intro hwaiting hm hsplit hbefore) (hentering.trans hu)) hall
      exact hkept
  · have hskip : prepare (readCell depth) p (runs + 1) (s.started c p) = (.ok (), s.started c p) :=
      prepare_eq (fun hone => absurd (Nat.succ.inj hone) hlater.ne') _
    cases h.symm.trans hskip
    rfl

/-- Nor does it touch the slot when it makes its value. -/
theorem content?_produce {r : Except Fault (List NodeId)} (hd : d < s.store.cells.size)
    (h : produce depth p (runs + 1) (s.started c p) = (r, t)) :
    t.store.content? d = (s.started c p).store.content? d := by
  unfold produce at h
  rw [mapFault_apply, releasing_apply] at h
  obtain ⟨-, rfl⟩ := Prod.mk.inj h
  rcases hp : prepare (readCell depth) p (runs + 1) (s.started c p) with ⟨f | _, u⟩
  · have hkept := content?_prepare hwaiting hread hp
    rw [bind_error hp]
    exact hkept
  · have hlt : d < u.store.cells.size := hd.trans_le (changes_of_prepare hp).le.size_cells
    have hgrows : u.store.Grows (evalNodes (p.valueOf (runs + 1)) u).2.store :=
      (additions_of_evalNodes rfl).grows
    rw [bind_ok hp]
    exact (content?_of_grows hgrows hlt).trans (content?_prepare hwaiting hread hp)

end Produce

/-- A slot that is not read on the way keeps what it held. -/
theorem content?_readCell {r : Except Fault (List NodeId)} (h : readCell depth c s = (r, t)) (hne : d ≠ c)
    (hno : ¬Nests depth c s d) (hd : d < s.store.cells.size) :
    t.store.content? d = s.store.content? d := by
  induction depth generalizing c s t r with
  | zero =>
    cases h
    rfl
  | succ depth ih =>
    have hread : ∀ e u, s.Enters depth c e u → s.Changes u → ∀ x v, readCell depth e u = (x, v) →
        v.store.content? d = u.store.content? d := by
      intro e u henters hu x v hv
      refine ih hv ?_ (fun hinner => hno (.deeper henters hinner)) (hd.trans_le hu.le.size_cells)
      rintro rfl
      exact hno (.entered henters)
    have hstarted : ∀ p, (s.started c p).store.content? d = s.store.content? d := by
      intro p
      rw [started_store, Store.content?_modifyContent, if_neg hne]
    have hsettled : ∀ (u : Session) run candidate,
        (u.settle c run candidate).store.content? d = u.store.content? d := by
      intro u run candidate
      rw [content?_settle, if_neg hne]
    cases readsTo_of_readCell h with
    | missing => rfl
    | published => rfl
    | failed content produced => exact (content?_produce content hread hd produced).trans (hstarted _)
    | settled content produced =>
      exact (hsettled _ _ _).trans ((content?_produce content hread hd produced).trans (hstarted _))
    | refused content produced =>
      exact (hsettled _ _ _).trans ((content?_produce content hread hd produced).trans (hstarted _))

/-- A slot that is not read by its own producer has been read once when it has been read. -/
theorem content?_readCell_self {ops : List NodeId} (h : readCell (depth + 1) c s = (.ok ops, t))
    (hno : ¬Nests (depth + 1) c s c) :
    t.store.content? c = (s.store.content? c).map (·.readOnce ops) := by
  cases readsTo_of_readCell h with
  | published published =>
    rw [Store.published?_eq_content?] at published
    obtain ⟨a, ha, ho⟩ := Option.bind_eq_some_iff.mp published
    rw [ha]
    rcases a with _ | ⟨p, runs, finished, _ | _⟩
    · rfl
    · cases ho
    · rfl
  | @settled p runs finished candidate _ u content produced accepted published =>
    have hlt : c < s.store.cells.size := Store.content?_lt content
    have hproduced : u.store.content? c = some (.deferred p (runs + 1) finished none) := by
      rw [content?_produce content (fun e v henters hv x w hw => ?_) hlt produced, started_store,
        Store.content?_modifyContent, if_pos rfl, content]
      · rfl
      · refine content?_readCell hw ?_ (fun hinner => hno (.deeper henters hinner))
          (hlt.trans_le hv.le.size_cells)
        rintro rfl
        exact hno (.entered henters)
    have hsettled : (u.settle c (runs + 1) candidate).store.content? c =
        some (.deferred p (runs + 1) ((runs + 1) :: finished) (some candidate)) := by
      rw [content?_settle, if_pos rfl, hproduced]
      rfl
    rw [Store.published?_eq_content?, hsettled] at published
    cases published
    rw [hsettled, content]
    rfl

/-! Slots of one operation. -/

/-- While the first slots are read, one after the other, none of all of them is read by a producer. -/
def Apart (s : Session) (all first : List CellId) : Prop :=
  ∀ before c after held t, first = before ++ c :: after → before.mapM operations s = (.ok held, t) →
    ∀ d ∈ all, ¬Nests (t.store.budget + 1) c t d

/-- Producers that enumerate nothing read nothing. -/
theorem apart_of_reenter {all first : List CellId}
    (h : ∀ c ∈ first, ∃ a, s.store.content? c = some a ∧
      ∀ p runs finished published, a = .deferred p runs finished published → p.reenter = none) :
    s.Apart all first := by
  intro before c after held t hsplit hbefore d _ hnests
  have hst : s.Changes t :=
    (changing_logic.compositional.mapM changing_logic.operations before).reaches hbefore
  obtain ⟨a, ha, hnone⟩ := h c (by rw [hsplit]; simp)
  have hno : ∀ {e u}, ¬t.Enters t.store.budget c e u := by
    rintro e u ⟨hwaiting, hnames, -, -⟩
    -- the slot still has the producer that it had
    obtain ⟨cell, hc, rfl⟩ := Option.map_eq_some_iff.mp ha
    obtain ⟨cell', hc', hl⟩ := hst.le.cell hc
    obtain ⟨cell'', hc'', hd⟩ := Option.map_eq_some_iff.mp hwaiting
    obtain rfl := Option.some.inj (hc'.symm.trans hc'')
    have hcontent := hl.content
    rw [hd] at hcontent
    generalize hb : cell.content = b at hcontent
    cases hcontent
    rw [hnone _ _ _ _ hb] at hnames
    cases hnames
  cases hnests with
  | entered h => exact hno h
  | deeper h => exact hno h

theorem content?_operations {ops : List NodeId} (h : operations c s = (.ok ops, t))
    (hno : ¬Nests (s.store.budget + 1) c s d) (hd : d < s.store.cells.size) :
    t.store.content? d = if d = c then (s.store.content? d).map (·.readOnce ops) else s.store.content? d := by
  have hread : readCell (s.store.budget + 1) c s = (.ok ops, t) := by
    cases ho : s.store.published? c with
    | none => rwa [operations_unpublished ho] at h
    | some ops' => rwa [operations_published ho, ← readCell_published ho] at h
  split
  · next heq =>
    subst heq
    exact content?_readCell_self hread hno
  · next hne => exact content?_readCell hread hne hno hd

/-- Of slots that are read one after the other, each has been read once at the end, and the rest keep
what they held, if no producer reads one of them. -/
theorem content?_of_apart {all cells : List CellId} {held : List (List NodeId)} (hapart : s.Apart all cells)
    (hnodup : cells.Nodup) (hall : ∀ d ∈ all, d < s.store.cells.size)
    (h : cells.mapM operations s = (.ok held, t)) {d : CellId} (hd : d ∈ all) :
    (d ∉ cells → t.store.content? d = s.store.content? d) ∧
      ∀ i : Nat, cells[i]? = some d → ∃ ops, held[i]? = some ops ∧
        t.store.content? d = (s.store.content? d).map (·.readOnce ops) := by
  induction cells generalizing s held with
  | nil =>
    cases h
    exact ⟨fun _ => rfl, fun i hi => by simp at hi⟩
  | cons c cells ih =>
    rw [List.mapM_cons] at h
    obtain ⟨ops, u, hread, h⟩ := bind_eq_ok h
    obtain ⟨rest, v, hrest, h⟩ := bind_eq_ok h
    cases h
    obtain ⟨hc, hnodup⟩ := List.nodup_cons.mp hnodup
    have hsu : s.Changes u := (changing_logic.operations c).reaches hread
    have hfirst := content?_operations hread (hapart [] c cells [] s rfl rfl d hd) (hall d hd)
    have hlater : u.Apart all cells := by
      intro before e after held w hsplit hbefore
      refine hapart (c :: before) e after (ops :: held) w (by rw [hsplit, List.cons_append]) ?_
      rw [List.mapM_cons, bind_ok hread, bind_ok hbefore]
      rfl
    obtain ⟨hother, hsome⟩ := ih hlater hnodup
      (fun e he => (hall e he).trans_le hsu.le.size_cells) hrest
    refine ⟨fun hmem => ?_, fun i hi => ?_⟩
    · rw [List.mem_cons, not_or] at hmem
      rw [hother hmem.2, hfirst, if_neg hmem.1]
    · cases i with
      | zero =>
        obtain rfl : c = d := Option.some.inj hi
        exact ⟨ops, rfl, by rw [hother hc, hfirst, if_pos rfl]⟩
      | succ i =>
        have hne : d ≠ c := by
          rintro rfl
          exact hc (List.mem_of_getElem? hi)
        obtain ⟨ops', hops, hcontent⟩ := hsome i hi
        exact ⟨ops', hops, by rw [hcontent, hfirst, if_neg hne]⟩

end Session
end BoundTree
