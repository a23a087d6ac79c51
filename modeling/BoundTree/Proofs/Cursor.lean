import BoundTree.Proofs.Nested
import BoundTree.Proofs.Origins
import BoundTree.Proofs.Slots
import BoundTree.Proofs.Traversals
import Mathlib.Data.List.ReduceOption

/-!
The children of an operation, asked for one by one. Main statement: they are what the child slots hold, slot
by slot in evaluation order, and slots are read no further than to the child that was asked for last.
-/
namespace BoundTree.Session

open Procedure

/-- How far the children of an operation have been asked for. -/
structure Cursor where
  /-- The child slots that are still to be read. -/
  slots : List CellId
  /-- What is left of the slot that was read last. -/
  current : List NodeId

namespace Cursor

/-- The next child is in the first slot that has one left. -/
def nextOf : List CellId → List NodeId → Procedure (Option NodeId × Cursor)
  | cells, child :: rest => pure (some child, ⟨cells, rest⟩)
  | [], [] => pure (none, ⟨[], []⟩)
  | c :: cells, [] => do nextOf cells (← operations c)

def next (k : Cursor) : Procedure (Option NodeId × Cursor) := nextOf k.slots k.current

/-- So many calls: what they returned, and how far they came. -/
def calls : Nat → Cursor → Procedure (List (Option NodeId) × Cursor)
  | 0, k => pure ([], k)
  | n + 1, k => do
    let first ← k.next
    let rest ← calls n first.2
    return (first.1 :: rest.1, rest.2)

theorem calls_current (n : Nat) (cells : List CellId) (x : NodeId) (rest : List NodeId) :
    calls (n + 1) ⟨cells, x :: rest⟩ =
      calls n ⟨cells, rest⟩ >>= fun r => pure (some x :: r.1, r.2) := by
  have hnext : next ⟨cells, x :: rest⟩ = pure (some x, ⟨cells, rest⟩) := by
    cases cells <;> rfl
  rw [calls, hnext, pure_bind]

theorem calls_slot (n : Nat) (c : CellId) (cells : List CellId) :
    calls (n + 1) ⟨c :: cells, []⟩ = operations c >>= fun ops => calls (n + 1) ⟨cells, ops⟩ := by
  have hnext : next ⟨c :: cells, []⟩ = operations c >>= fun ops => next ⟨cells, ops⟩ := rfl
  rw [calls, hnext, bind_assoc]
  rfl

/-- At the end nothing more is read. -/
theorem calls_end (n : Nat) : calls n ⟨[], []⟩ = pure (List.replicate n none, ⟨[], []⟩) := by
  induction n with
  | zero => rfl
  | succ n ih =>
    have hnext : next ⟨[], []⟩ = pure (none, ⟨[], []⟩) := rfl
    rw [calls, hnext, pure_bind, ih, pure_bind, List.replicate_succ]

end Cursor

/-! Limits. -/

/-- The operations of all slots together. -/
theorem gather_none (cells : List CellId) :
    gather cells none = cells.mapM operations >>= fun held => pure held.flatten := by
  induction cells with
  | nil => rfl
  | cons c cells ih =>
    have hgather : gather (c :: cells) none =
        operations c >>= fun ops => gather cells none >>= fun rest => pure (ops ++ rest) := rfl
    rw [hgather, ih, List.mapM_cons]
    simp only [bind_assoc, pure_bind, List.flatten_cons]

/-- What is left of a slot comes first. -/
theorem calls_of_gather {cells : List CellId}
    (h : ∀ n, gather cells (some n) = Cursor.calls n ⟨cells, []⟩ >>= fun r => pure r.1.reduceOption)
    (current : List NodeId) (n : Nat) :
    (Cursor.calls n ⟨cells, current⟩ >>= fun r => pure r.1.reduceOption) =
      gather cells (some (n - current.length)) >>= fun rest => pure (current.take n ++ rest) := by
  induction current generalizing n with
  | nil => simp [h]
  | cons x rest ih =>
    cases n with
    | zero => simp [h, Cursor.calls]
    | succ n =>
      have hrest := congrArg (· >>= fun ops : List NodeId => pure (x :: ops)) (ih n)
      simp only [bind_assoc, pure_bind] at hrest
      rw [Cursor.calls_current, bind_assoc]
      simpa [List.reduceOption_cons_of_some] using hrest

/-- A limit is so many calls. -/
theorem gather_some (cells : List CellId) (n : Nat) :
    gather cells (some n) = Cursor.calls n ⟨cells, []⟩ >>= fun r => pure r.1.reduceOption := by
  induction cells generalizing n with
  | nil =>
    have hend : gather [] (some n) = pure [] := by cases n <;> rfl
    rw [hend, Cursor.calls_end]
    simp [List.reduceOption]
  | cons c cells ih =>
    cases n with
    | zero => rfl
    | succ n =>
      have hgather : gather (c :: cells) (some (n + 1)) = operations c >>= fun ops =>
          gather cells (some (n + 1 - ops.length)) >>= fun rest => pure (ops.take (n + 1) ++ rest) := rfl
      rw [hgather, Cursor.calls_slot, bind_assoc]
      exact congrArg _ (funext fun ops => (calls_of_gather ih ops (n + 1)).symm)

theorem viewSlots_eq (slots : List (String × CellId)) :
    viewSlots slots = (slots.map (·.2)).mapM operations >>= fun held =>
      pure (List.zipWith SlotView.mk (slots.map (·.1)) held) := by
  induction slots with
  | nil => rfl
  | cons slot slots ih =>
    rw [viewSlots, ih, List.map_cons, List.mapM_cons]
    simp only [bind_assoc, pure_bind, List.map_cons, List.zipWith_cons_cons]

/-! How far slots have been read. -/

/-- Some children have been asked for: so many of the slots have been read, one after the other, and the
last one of these was needed. -/
structure Drawn (cells : List CellId) (s : Session) (xs : List NodeId) (k : Cursor) (t : Session)
    (held : List (List NodeId)) : Prop where
  read : (cells.take held.length).mapM operations s = (.ok held, t)
  slots : k.slots = cells.drop held.length
  given : xs ++ k.current = held.flatten
  needed : held = [] ∨ held.dropLast.flatten.length < xs.length

variable {cells : List CellId} {s t u : Session} {xs : List NodeId} {k k' : Cursor}
  {held : List (List NodeId)}

theorem drawn_start (cells : List CellId) (s : Session) : Drawn cells s [] ⟨cells, []⟩ s [] :=
  ⟨rfl, rfl, rfl, .inl rfl⟩

/-- What the next call comes to. -/
inductive Draws (cells : List CellId) (s : Session) (xs : List NodeId) (u : Session) :
    Option NodeId → Cursor → Prop
  | child {x : NodeId} {k : Cursor} {held : List (List NodeId)} (drawn : Drawn cells s (xs ++ [x]) k u held) :
      Draws cells s xs u (some x) k
  | exhausted {held : List (List NodeId)} (read : cells.mapM operations s = (.ok held, u))
      (given : xs = held.flatten) : Draws cells s xs u none ⟨[], []⟩

/-- What is left of the last slot comes next. -/
theorem drawn_of_left {rest : List CellId} {x : NodeId} {left : List NodeId}
    (hread : (cells.take held.length).mapM operations s = (.ok held, t))
    (hslots : rest = cells.drop held.length) (hgiven : xs ++ x :: left = held.flatten)
    (hneeded : held.dropLast.flatten.length ≤ xs.length) :
    Drawn cells s (xs ++ [x]) ⟨rest, left⟩ t held := by
  refine ⟨hread, hslots, by simpa using hgiven, .inr ?_⟩
  rw [List.length_append, List.length_singleton]
  exact Nat.lt_succ_of_le hneeded

/-- If nothing is left, the next child is in the first slot that is not empty. -/
theorem draws_nextOf {rest : List CellId} {current : List NodeId} {x : Option NodeId}
    (hread : (cells.take held.length).mapM operations s = (.ok held, t))
    (hslots : rest = cells.drop held.length) (hgiven : xs ++ current = held.flatten)
    (hneeded : held.dropLast.flatten.length ≤ xs.length)
    (h : Cursor.nextOf rest current t = (.ok (x, k'), u)) : Draws cells s xs u x k' := by
  induction rest generalizing current held t with
  | nil =>
    cases current with
    | cons x left =>
      cases h
      exact .child (drawn_of_left hread hslots hgiven hneeded)
    | nil =>
      cases h
      have hall : cells.take held.length = cells :=
        List.take_of_length_le (List.drop_eq_nil_iff.mp hslots.symm)
      rw [hall] at hread
      exact .exhausted hread (by simpa using hgiven)
  | cons c rest ih =>
    cases current with
    | cons x left =>
      cases h
      exact .child (drawn_of_left hread hslots hgiven hneeded)
    | nil =>
      obtain ⟨ops, v, hops, h⟩ := bind_eq_ok (x := operations c) h
      have hc : cells[held.length]? = some c := by
        rw [← List.head?_drop, ← hslots, List.head?_cons]
      have hmore : (cells.take (held ++ [ops]).length).mapM operations s = (.ok (held ++ [ops]), v) := by
        rw [List.length_append, List.length_singleton, List.take_add_one, hc, Option.toList_some,
          List.mapM_append, bind_ok hread, List.mapM_cons, bind_assoc, bind_ok hops]
        rfl
      have hrest : rest = cells.drop (held ++ [ops]).length := by
        rw [List.length_append, List.length_singleton, ← List.tail_drop, ← hslots, List.tail_cons]
      have hall : xs ++ ops = (held ++ [ops]).flatten := by simpa using hgiven
      have hempty : (held ++ [ops]).dropLast.flatten.length ≤ xs.length := by
        rw [List.dropLast_concat, ← hgiven, List.append_nil]
      exact ih hmore hrest hall hempty h

theorem Drawn.next (h : Drawn cells s xs k t held) {x : Option NodeId}
    (hx : k.next t = (.ok (x, k'), u)) : Draws cells s xs u x k' := by
  refine draws_nextOf h.read h.slots h.given ?_ hx
  rcases h.needed with rfl | hlt
  · exact Nat.zero_le _
  · exact hlt.le

/-- Calls that all return a child. -/
theorem Drawn.calls (h : Drawn cells s xs k t held) {ys : List NodeId}
    (hys : Cursor.calls ys.length k t = (.ok (ys.map some, k'), u)) :
    ∃ held', Drawn cells s (xs ++ ys) k' u held' := by
  induction ys generalizing xs k t held with
  | nil =>
    cases hys
    exact ⟨held, by simpa using h⟩
  | cons y ys ih =>
    obtain ⟨⟨x, k₁⟩, v, hfirst, hys⟩ := bind_eq_ok (x := k.next) hys
    obtain ⟨⟨rest, k₂⟩, w, hrest, hys⟩ := bind_eq_ok hys
    obtain ⟨hpair, rfl⟩ := Prod.mk.inj hys
    obtain ⟨hresults, rfl⟩ := Prod.mk.inj (Except.ok.inj hpair)
    obtain ⟨rfl, rfl⟩ := List.cons.inj hresults
    cases h.next hfirst with
    | child hdrawn =>
      obtain ⟨held', hdrawn⟩ := ih hdrawn hrest
      exact ⟨held', by simpa using hdrawn⟩

/-- Calls one of which comes to the end. -/
theorem Drawn.calls_end (h : Drawn cells s xs k t held) {n : Nat} {ys : List (Option NodeId)}
    (hys : Cursor.calls n k t = (.ok (ys, k'), u)) (hend : none ∈ ys) :
    k' = ⟨[], []⟩ ∧ ∃ held', cells.mapM operations s = (.ok held', u) ∧
      xs ++ ys.reduceOption = held'.flatten := by
  induction n generalizing xs k t held ys with
  | zero =>
    cases hys
    cases hend
  | succ n ih =>
    obtain ⟨⟨x, k₁⟩, v, hfirst, hys⟩ := bind_eq_ok (x := k.next) hys
    obtain ⟨⟨rest, k₂⟩, w, hrest, hys⟩ := bind_eq_ok hys
    cases hys
    cases h.next hfirst with
    | child hdrawn =>
      have hmem : none ∈ rest := (List.mem_cons.mp hend).resolve_left nofun
      obtain ⟨hk, held', hread, hall⟩ := ih hdrawn hrest hmem
      exact ⟨hk, held', hread, by simpa [List.reduceOption_cons_of_some] using hall⟩
    | exhausted hread hgiven =>
      rw [Cursor.calls_end] at hrest
      cases hrest
      exact ⟨rfl, _, hread, by simp [hgiven, List.reduceOption]⟩

/-! The children of an operation. -/

section

variable {n : NodeId} {node : Node} (hn : s.store.node? n = some node)
include hn

theorem slotViews_apply (limit : Option Nat) : slotViews n limit s =
    viewSlots (limit.elim node.namedChildCells node.namedChildCells.take) s := by
  rw [slotViews, bind_ok (namedChildCells_apply hn)]

theorem slotView?_apply (i : Nat) : slotView? n i s =
    match node.namedChildCells[i]? with
    | some slot => (operations slot.2 >>= fun ops => pure (some ⟨slot.1, ops⟩)) s
    | none => (.ok none, s) := by
  rw [slotView?, bind_ok (namedChildCells_apply hn)]
  cases node.namedChildCells[i]? <;> rfl

end

/-- What the slots of an operation hold once some of them have been read: those had one run if they were
without their value, and the others have been left alone. -/
theorem Drawn.content? {n : NodeId} {node : Node} (hs : s.Orderly {}) (hn : s.store.node? n = some node)
    (h : Drawn node.childCells s xs k t held)
    (hapart : s.Apart node.childCells (node.childCells.take held.length)) {i : Nat} {c : CellId}
    (hc : node.childCells[i]? = some c) : t.store.content? c =
      match held[i]? with
      | some ops => (s.store.content? c).map (·.readOnce ops)
      | none => s.store.content? c := by
  have hnodup : node.childCells.Nodup := Node.nodup_childCells (hs.distinct n node hn)
  have hthere : ∀ d ∈ node.childCells, d < s.store.cells.size := by
    intro d hd
    obtain ⟨cell, hcell⟩ := Option.isSome_iff_exists.mp
      (hs.toOwned.cell hn (Node.mem_linkedCells_of_childCells hd))
    exact Store.cell?_lt hcell
  obtain ⟨hother, hread⟩ := content?_of_apart hapart
    (hnodup.sublist (List.take_sublist _ _)) hthere h.read (List.mem_of_getElem? hc)
  by_cases hi : i < held.length
  · obtain ⟨ops, hops, hcontent⟩ := hread i (by rwa [List.getElem?_take_of_lt hi])
    rw [hops]
    exact hcontent
  · have hnone : held[i]? = none := List.getElem?_eq_none (Nat.not_lt.mp hi)
    rw [hnone]
    refine hother fun hmem => hi ?_
    obtain ⟨j, hj⟩ := List.mem_iff_getElem?.mp hmem
    have hlt : j < held.length := by
      by_contra hge
      rw [List.getElem?_take_eq_none (Nat.not_lt.mp hge)] at hj
      cases hj
    rw [List.getElem?_take_of_lt hlt] at hj
    have hij : i = j :=
      (List.getElem?_inj (List.getElem?_eq_some_iff.mp hc).1 hnodup).mp (hc.trans hj.symm)
    exact hij ▸ hlt

/-- Whatever the shape of an operation is, and whatever its slots hold: its child slots are evaluated as
they are declared, each once, but a loop that is tested at the bottom runs its body before its condition.
There is a slot at each place that has a name, and at no other one. Enumerating the slots reads them in
that order, and the children are what they hold, one slot after the other. When so many calls have returned
a child each, the slots have been read up to the one with the last of these children, and, if no producer
reads one of the slots itself, each of them has had one run at most and the others have been left alone.
Once a call has returned nothing, all slots have been read, and every further call returns nothing. -/
theorem children_on_demand {verifies : Bool} (hs : Reached verifies s) {n : NodeId} {node : Node}
    (hn : s.store.node? n = some node) :
    node.declaredSlots.map (·.1) = node.shape.slotNames ∧
    (if node.shape = .whileLoop ∧ ¬node.payload.flag "condition_is_top" then
      ∃ condition body ignored,
        node.declaredSlots = [("condition", condition), ("body", body), ("ignored_condition", ignored)] ∧
        node.namedChildCells = [("body", body), ("condition", condition), ("ignored_condition", ignored)]
    else node.namedChildCells = node.declaredSlots) ∧
    node.namedChildCells.map (·.2) = node.childCells ∧
    (∀ i, i < node.shape.slotNames.length → ∃ name c, node.namedChildCells[i]? = some (name, c) ∧
      slotView? n i s = (operations c >>= fun ops => pure (some ⟨name, ops⟩)) s) ∧
    (∀ i, node.shape.slotNames.length ≤ i → slotView? n i s = (.ok none, s)) ∧
    (∀ limit, let slots := limit.elim node.namedChildCells node.namedChildCells.take
      slotViews n limit s = ((slots.map (·.2)).mapM operations >>= fun held =>
        pure (List.zipWith SlotView.mk (slots.map (·.1)) held)) s) ∧
    children n none s = (node.childCells.mapM operations >>= fun held => pure held.flatten) s ∧
    (∀ limit, children n (some limit) s =
      (Cursor.calls limit ⟨node.childCells, []⟩ >>= fun r => pure r.1.reduceOption) s) ∧
    (∀ xs k t, Cursor.calls xs.length ⟨node.childCells, []⟩ s = (.ok (xs.map some, k), t) →
      ∃ held, Drawn node.childCells s xs k t held ∧
        (s.Apart node.childCells (node.childCells.take held.length) →
          ∀ (i : Nat) c, node.childCells[i]? = some c → t.store.content? c =
            match held[i]? with
            | some ops => (s.store.content? c).map (·.readOnce ops)
            | none => s.store.content? c)) ∧
    (∀ count results k t, Cursor.calls count ⟨node.childCells, []⟩ s = (.ok (results, k), t) →
      none ∈ results →
      (∃ held, node.childCells.mapM operations s = (.ok held, t) ∧ results.reduceOption = held.flatten) ∧
        ∀ u, k.next u = (.ok (none, k), u)) := by
  have hwhole := hs.whole hn
  have hlength := Node.length_namedChildCells hwhole
  have hstart := drawn_start node.childCells s
  refine ⟨Node.slotNames_declaredSlots hwhole, ?_, node.map_namedChildCells, fun i hi => ?_,
    fun i hi => ?_, fun limit => ?_, ?_, fun limit => ?_, fun xs k t hxs => ?_,
    fun count results k t hresults hend => ?_⟩
  · split
    · next hbottom => exact Node.namedChildCells_bottom hbottom.1 hbottom.2 hwhole
    · next htop => exact Node.namedChildCells_eq htop
  · rw [← hlength] at hi
    have hslot := List.getElem?_eq_getElem hi
    refine ⟨_, _, hslot, ?_⟩
    rw [slotView?_apply hn, hslot]
    rfl
  · rw [slotView?_apply hn, List.getElem?_eq_none (hlength.trans_le hi)]
  · rw [slotViews_apply hn, viewSlots_eq]
  · rw [children_apply hn, gather_none]
  · rw [children_apply hn, gather_some]
  · obtain ⟨held, hdrawn⟩ := hstart.calls hxs
    exact ⟨held, hdrawn, fun hapart i c hc => hdrawn.content? hs.orderly hn hapart hc⟩
  · obtain ⟨rfl, held, hread, hall⟩ := hstart.calls_end hresults hend
    exact ⟨⟨held, hread, hall⟩, fun u => rfl⟩

/-- A loop that is tested at the bottom gets its condition and its body late. -/
def lateLoop : List Step :=
  [.build (emptyStatement (some "x")), .build (emptyStatement (some "y")),
    .build (statement (some "w") .whileLoop
      [.deferred (.mk none none [.named "y"] []), .deferred (.mk none none [.named "x"] []), .filled []]
      [.value (.flag false), .value (.flag false), .value (.handles .localVar []),
        .value (.handle .label ⟨0⟩), .value (.handle .label ⟨1⟩)])]

/-- The body is asked for, and the condition still waits. -/
theorem children_on_demand_lateLoop : ∃ node k t held,
    ((start true).after lateLoop).store.node? 2 = some node ∧
      Cursor.calls 1 ⟨node.childCells, []⟩ ((start true).after lateLoop) = (.ok ([some 0], k), t) ∧
      Drawn node.childCells ((start true).after lateLoop) [0] k t held ∧
      ∀ (i : Nat) c, node.childCells[i]? = some c → t.store.content? c =
        match held[i]? with
        | some ops => (((start true).after lateLoop).store.content? c).map (·.readOnce ops)
        | none => ((start true).after lateLoop).store.content? c := by
  obtain ⟨node, hnode, hcells⟩ : ∃ node, ((start true).after lateLoop).store.node? 2 = some node ∧
      node.childCells = [1, 0, 2] := ⟨_, rfl, rfl⟩
  obtain ⟨k, t, hcalls⟩ : ∃ k t, Cursor.calls 1 ⟨[1, 0, 2], []⟩ ((start true).after lateLoop) =
      (.ok ([some 0], k), t) := ⟨_, _, rfl⟩
  rw [← hcells] at hcalls
  obtain ⟨-, -, -, -, -, -, -, -, hdrawn, -⟩ := children_on_demand (Reached.start.after lateLoop) hnode
  obtain ⟨held, hheld, hcontent⟩ := hdrawn [0] k t hcalls
  refine ⟨node, k, t, held, hnode, hcalls, hheld, hcontent (apart_of_reenter fun c hc => ?_)⟩
  rw [hcells] at hc
  have hmem : c ∈ [1, 0, 2] := List.mem_of_mem_take hc
  simp only [List.mem_cons, List.not_mem_nil, or_false] at hmem
  rcases hmem with rfl | rfl | rfl
  · exact ⟨_, rfl, by rintro p _ _ _ ⟨⟩; rfl⟩
  · exact ⟨_, rfl, by rintro p _ _ _ ⟨⟩; rfl⟩
  · exact ⟨_, rfl, by rintro p _ _ _ ⟨⟩⟩

end BoundTree.Session
