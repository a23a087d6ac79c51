import BoundTree.Proofs.Link
import BoundTree.Proofs.Termination

/-!
The check of a tree is exact. Where every slot below an operation has its value, the check ends, whatever
is shared, goes in a circle or is linked wrongly, and it reports every fault of every position once and
every operation that is held again once for each time. Main statement: what is reported is, but for the
order, what is wrong.
-/
namespace BoundTree

namespace Store

/-- Operations that are found from another one through child slots, itself among them. -/
def Below (s : Store) : NodeId → NodeId → Prop :=
  Relation.ReflTransGen fun p n => n ∈ s.heldBy .attached p

/-- Every operation that is found is there, and every slot of it has its value. -/
def Materialized (s : Store) (r : NodeId) : Prop :=
  ∀ p, s.Below r p → ∃ node, s.node? p = some node ∧
    ∀ c ∈ node.linkedCells, (s.published? c.2).isSome

/-- Operations that hold no others, and that have all values, are all that is found. -/
theorem Materialized.of_closed {s : Store} {r : NodeId} (ns : List NodeId) (hr : r ∈ ns)
    (h : ∀ p ∈ ns, s.heldBy .attached p ⊆ ns ∧ (s.node? p).any fun node =>
      node.linkedCells.all fun c => (s.published? c.2).isSome) : s.Materialized r := by
  have hbelow : ∀ p, s.Below r p → p ∈ ns := by
    intro p hp
    induction hp with
    | refl => exact hr
    | tail _ hc ih => exact (h _ ih).1 hc
  intro p hp
  have hall := (h p (hbelow p hp)).2
  cases hnode : s.node? p with
  | none => simp [hnode] at hall
  | some node => exact ⟨node, rfl, by simpa [hnode] using hall⟩

end Store

namespace Session

open Procedure

/-- What is wrong at the positions of an operation. -/
def faults (s : Session) (p : NodeId) : List LinkViolation :=
  (s.store.heldBy .attached p).filterMap (s.childFault? p) ++
    (s.store.heldBy .detached p).filterMap (s.valueFault? p)

def sharing? (s : Session) (c : NodeId) : Option LinkViolation := (s.kind? c).map .sharedNode

/-- What is wrong about an operation that is held again: the root is so at every place, and any other
operation at every place but one. -/
def sharings (s : Session) (r : NodeId) (held : List NodeId) (c : NodeId) : List LinkViolation :=
  (List.replicate (held.count c - if c = r then 0 else 1) c).filterMap s.sharing?

/-- What is found from an operation is a tree below it, linked as it is held. -/
structure IsTree (s : Session) (r : NodeId) : Prop where
  linked : ∀ p, s.store.Below r p → ∀ c ∈ s.store.heldBy .attached p, s.store.link? c = some p
  models : ∀ p, s.store.Below r p → ∀ c ∈ s.store.heldBy .attached p, s.store.ModelsAgree p c
  once : ∀ p, s.store.Below r p → (s.store.heldBy .attached p).Nodup
  apart : ∀ p q c, s.store.Below r p → s.store.Below r q → c ∈ s.store.heldBy .attached p →
    c ∈ s.store.heldBy .attached q → p = q
  root : ∀ p, s.store.Below r p → r ∉ s.store.heldBy .attached p
  values : ∀ p, s.store.Below r p → ∀ c ∈ s.store.heldBy .detached p, s.store.link? c = none

/-- The checks at the positions of an operation find its faults. -/
theorem perm_faults (s : Session) (p : NodeId) (cells : List (Linkage × CellId)) :
    ((s.positions cells).filterMap fun n => s.checkLink p n.1 n.2).Perm
      ((s.store.heldIn .attached cells).filterMap (s.childFault? p) ++
        (s.store.heldIn .detached cells).filterMap (s.valueFault? p)) := by
  rw [← filterMap_positions, ← filterMap_positions, List.filterMap_filterMap,
    List.filterMap_filterMap]
  induction s.positions cells with
  | nil => exact .nil
  | cons n ns ih =>
    obtain ⟨l, c⟩ := n
    cases l with
    | attached =>
      simp only [List.filterMap_cons, checkLink_attached, if_true, Option.bind_some, reduceCtorEq,
        if_false, Option.bind_none]
      cases s.childFault? p c with
      | none => exact ih
      | some v => exact ih.cons v
    | detached =>
      simp only [List.filterMap_cons, checkLink_detached, if_true, Option.bind_some, reduceCtorEq,
        if_false, Option.bind_none]
      cases s.valueFault? p c with
      | none => exact ih
      | some v => exact (ih.cons v).trans List.perm_middle.symm

/-! One position after the other. -/

/-- What a sweep has come to when it has been at some positions: each operation that is held there was
found once, the root aside, and found again at all other positions. -/
structure Tally (s : Session) (r : NodeId) (w : Sweep) (held : Multiset NodeId)
    (faults : Multiset LinkViolation) : Prop where
  nodup : w.seen.Nodup
  root : r ∈ w.seen
  seen : ∀ c ∈ held, c ∈ w.seen
  found : ∃ again : Multiset NodeId, held = again + (w.seen.erase r : Multiset NodeId) ∧
    (w.found : Multiset LinkViolation) = faults + again.filterMap s.sharing?

theorem Tally.report {s : Session} {r : NodeId} {w : Sweep} {held : Multiset NodeId}
    {faults : Multiset LinkViolation} (h : Tally s r w held faults) (v : LinkViolation) :
    Tally s r { w with found := v :: w.found } held (v ::ₘ faults) := by
  obtain ⟨again, hheld, hfound⟩ := h.found
  refine ⟨h.nodup, h.root, h.seen, again, hheld, ?_⟩
  rw [Multiset.cons_add, ← hfound]
  rfl

theorem Tally.reach {s : Session} {r : NodeId} {w : Sweep} {held : Multiset NodeId}
    {faults : Multiset LinkViolation} (h : Tally s r w held faults) (c : NodeId) :
    Tally s r (w.reach s c) (c ::ₘ held) faults := by
  obtain ⟨again, hheld, hfound⟩ := h.found
  by_cases hc : c ∈ w.seen
  · have hreach : w.reach s c = { w with found := (s.sharing? c).toList ++ w.found } := by
      unfold Sweep.reach sharing? kind? linkFacts?
      rw [if_pos hc]
      cases s.store.node? c <;> rfl
    rw [hreach]
    refine ⟨h.nodup, h.root, ?_, c ::ₘ again, by rw [hheld, Multiset.cons_add], ?_⟩
    · intro d hd
      rcases Multiset.mem_cons.mp hd with rfl | hd
      · exact hc
      · exact h.seen d hd
    · cases hs : s.sharing? c with
      | none =>
        rw [Multiset.filterMap_cons_none _ _ hs, ← hfound]
        rfl
      | some v =>
        rw [Multiset.filterMap_cons_some _ _ _ hs, Multiset.add_cons, ← hfound]
        rfl
  · have hreach : w.reach s c = { w with seen := c :: w.seen, pending := c :: w.pending } := by
      unfold Sweep.reach
      rw [if_neg hc]
    have hne : c ≠ r := fun he => hc (he ▸ h.root)
    rw [hreach]
    refine ⟨List.nodup_cons.mpr ⟨hc, h.nodup⟩, List.mem_cons_of_mem _ h.root, ?_, again, ?_, hfound⟩
    · intro d hd
      rcases Multiset.mem_cons.mp hd with rfl | hd
      · exact List.mem_cons_self
      · exact List.mem_cons_of_mem _ (h.seen d hd)
    · rw [List.erase_cons_tail (by simpa using hne), hheld, ← Multiset.cons_coe, Multiset.add_cons]

/-- Only children that are new are to be checked later. -/
theorem Sweep.visit_new (w : Sweep) (s : Session) (owner : NodeId) (l : Linkage) (c : NodeId) :
    ∃ new, (w.visit s owner l c).seen = new ++ w.seen ∧
      (w.visit s owner l c).pending = new ++ w.pending ∧ ∀ m ∈ new, (Linkage.attached, m) = (l, c) := by
  have hreach : ∀ w : Sweep, ∃ new, (w.reach s c).seen = new ++ w.seen ∧
      (w.reach s c).pending = new ++ w.pending ∧ ∀ m ∈ new, m = c := by
    intro w
    unfold Sweep.reach
    split
    · exact ⟨[], by split <;> simp⟩
    · exact ⟨[c], by simp⟩
  unfold Sweep.visit
  cases l with
  | attached => cases s.checkLink owner .attached c <;> simpa using hreach _
  | detached => cases s.checkLink owner .detached c <;> exact ⟨[], by simp⟩

theorem Tally.visit {s : Session} {r : NodeId} {w : Sweep} {held : Multiset NodeId}
    {faults : Multiset LinkViolation} (h : Tally s r w held faults) (owner : NodeId) (l : Linkage)
    (c : NodeId) :
    Tally s r (w.visit s owner l c) ((if l = .attached then {c} else 0) + held)
      ((s.checkLink owner l c).elim 0 ({·}) + faults) := by
  unfold Sweep.visit
  cases l with
  | attached =>
    cases s.checkLink owner .attached c with
    | none => simpa using h.reach c
    | some v => simpa using (h.report v).reach c
  | detached =>
    cases s.checkLink owner .detached c with
    | none => simpa using h
    | some v => simpa using h.report v

/-- The sweep at positions of one operation. -/
def Sweep.visitAll (w : Sweep) (s : Session) (owner : NodeId) (ns : List (Linkage × NodeId)) : Sweep :=
  ns.foldl (fun w n => w.visit s owner n.1 n.2) w

theorem Sweep.visitAll_append (w : Sweep) (s : Session) (owner : NodeId) (ns ms : List (Linkage × NodeId)) :
    w.visitAll s owner (ns ++ ms) = (w.visitAll s owner ns).visitAll s owner ms := List.foldl_append

/-- The positions of one slot are visited one value after another. -/
theorem sweepSlots_cons (owner : NodeId) (c : Linkage × CellId) (cells : List (Linkage × CellId))
    (w : Sweep) : sweepSlots owner (c :: cells) w = operations c.2 >>= fun ops => read >>= fun s =>
      sweepSlots owner cells (w.visitAll s owner (ops.map (c.1, ·))) := by
  simp only [Sweep.visitAll, List.foldl_map]
  rfl

theorem Sweep.visitAll_new (w : Sweep) (s : Session) (owner : NodeId) (ns : List (Linkage × NodeId)) :
    ∃ new, (w.visitAll s owner ns).seen = new ++ w.seen ∧
      (w.visitAll s owner ns).pending = new ++ w.pending ∧ ∀ m ∈ new, (Linkage.attached, m) ∈ ns := by
  induction ns generalizing w with
  | nil => exact ⟨[], rfl, rfl, by simp⟩
  | cons n ns ih =>
    obtain ⟨new, hs, hp, hn⟩ := w.visit_new s owner n.1 n.2
    obtain ⟨more, hs', hp', hn'⟩ := ih (w.visit s owner n.1 n.2)
    refine ⟨more ++ new, ?_, ?_, ?_⟩
    · rw [List.append_assoc, ← hs, ← hs']
      rfl
    · rw [List.append_assoc, ← hp, ← hp']
      rfl
    · intro m hm
      rcases List.mem_append.mp hm with hm | hm
      · exact List.mem_cons_of_mem _ (hn' m hm)
      · exact List.mem_cons.mpr (.inl (hn m hm))

theorem Tally.visitAll {s : Session} {r : NodeId} {w : Sweep} {held : Multiset NodeId}
    {faults : Multiset LinkViolation} (h : Tally s r w held faults) (owner : NodeId)
    (ns : List (Linkage × NodeId)) :
    Tally s r (w.visitAll s owner ns)
      ((ns.filterMap fun n => if n.1 = .attached then some n.2 else none : List NodeId) + held)
      ((ns.filterMap fun n => s.checkLink owner n.1 n.2 : List LinkViolation) + faults) := by
  induction ns generalizing w held faults with
  | nil => simpa [Sweep.visitAll] using h
  | cons n ns ih =>
    have hnext := ih (h.visit owner n.1 n.2)
    rw [← add_assoc, ← add_assoc] at hnext
    have hheld : ((n :: ns).filterMap fun n => if n.1 = .attached then some n.2 else none :
        Multiset NodeId) = ((ns.filterMap fun n => if n.1 = .attached then some n.2 else none :
          List NodeId) : Multiset NodeId) + if n.1 = .attached then {n.2} else 0 := by
      by_cases hl : n.1 = .attached
      · simp only [List.filterMap_cons, hl, if_true, ← Multiset.cons_coe, Multiset.add_comm,
          Multiset.singleton_add]
      · simp [hl]
    have hfaults : ((n :: ns).filterMap fun n => s.checkLink owner n.1 n.2 :
        Multiset LinkViolation) = ((ns.filterMap fun n => s.checkLink owner n.1 n.2 :
          List LinkViolation) : Multiset LinkViolation) +
            (s.checkLink owner n.1 n.2).elim 0 ({·}) := by
      cases hv : s.checkLink owner n.1 n.2 with
      | none => simp [hv]
      | some v =>
        simp only [List.filterMap_cons, hv, Option.elim_some, ← Multiset.cons_coe,
          Multiset.add_comm, Multiset.singleton_add]
    rw [hheld, hfaults]
    exact hnext

/-- Where the slots have their values, nothing is read, and each value is checked. -/
theorem sweepSlots_apply {s : Session} {cells : List (Linkage × CellId)}
    (h : ∀ c ∈ cells, (s.store.published? c.2).isSome) (owner : NodeId) (w : Sweep) :
    sweepSlots owner cells w s = (.ok (w.visitAll s owner (s.positions cells)), s) := by
  induction cells generalizing w with
  | nil => rfl
  | cons c cells ih =>
    obtain ⟨ops, ho⟩ := Option.isSome_iff_exists.mp (h c List.mem_cons_self)
    rw [sweepSlots_cons, bind_ok (operations_published ho), bind_ok (read_apply s),
      ih fun d hd => h d (List.mem_cons_of_mem _ hd), positions_cons, ho, Option.getD_some,
      Sweep.visitAll_append]

/-- A sweep without pending operations has come to its end. -/
theorem sweep_done {w : Sweep} (hp : w.pending = []) (steps : Nat) (s : Session) :
    sweep (steps + 1) w s = (.ok w, s) := by
  unfold sweep
  rw [hp]
  rfl

/-- The slots of the operation that is pending first are checked, and then the sweep goes on. -/
theorem sweep_next {w : Sweep} {s : Session} {n : NodeId} {pending : List NodeId} {node : Node}
    (hp : w.pending = n :: pending) (hnode : s.store.node? n = some node) (steps : Nat) :
    sweep (steps + 1) w s =
      (sweepSlots n node.linkedCells { w with pending } >>= sweep steps) s := by
  have hstep : sweep (steps + 1) w = read >>= fun s =>
      sweepSlots n ((s.store.node? n).elim [] (·.linkedCells)) { w with pending } >>=
        sweep steps := by
    conv_lhs => unfold sweep
    rw [hp]
  rw [hstep, bind_ok (read_apply s), hnode]
  rfl

/-- A sweep that has checked some operations goes on until it has checked all that are found. What is
not found yet and what is pending bound the steps that are left. -/
theorem sweep_exact {s : Session} {r : NodeId} (hm : s.store.Materialized r) (steps : Nat) (w : Sweep)
    (done : List NodeId)
    (hw : Tally s r w (done.flatMap (s.store.heldBy .attached) : List NodeId)
      (done.flatMap s.faults : List LinkViolation))
    (hseen : w.seen.Perm (done ++ w.pending)) (hbelow : ∀ n ∈ w.seen, s.store.Below r n)
    (hsteps : s.store.nodes.size + w.pending.length < steps + w.seen.length) :
    ∃ w' order, sweep steps w s = (.ok w', s) ∧
      Tally s r w' (order.flatMap (s.store.heldBy .attached) : List NodeId)
        (order.flatMap s.faults : List LinkViolation) ∧
      w'.seen.Perm order ∧ ∀ n ∈ order, s.store.Below r n := by
  induction steps generalizing w done with
  | zero =>
    -- there are no more operations than the store has
    have hsub : w.seen ⊆ List.range s.store.nodes.size := by
      intro n hn
      obtain ⟨node, hnode, -⟩ := hm n (hbelow n hn)
      exact List.mem_range.mpr (Store.node?_lt hnode)
    have hle := (List.subperm_of_subset hw.nodup hsub).length_le
    rw [List.length_range] at hle
    omega
  | succ steps ih =>
    cases hp : w.pending with
    | nil =>
      refine ⟨w, done, sweep_done hp steps s, hw, by simpa [hp] using hseen, ?_⟩
      intro n hn
      exact hbelow n (hseen.mem_iff.mpr (List.mem_append_left _ hn))
    | cons n pending =>
      have hn : s.store.Below r n := hbelow n (hseen.mem_iff.mpr (by simp [hp]))
      obtain ⟨node, hnode, hcells⟩ := hm n hn
      have hheldBy : ∀ l, s.store.heldBy l n = s.store.heldIn l node.linkedCells := by
        intro l
        simp [Store.heldBy, hnode]
      let next := ({ w with pending } : Sweep).visitAll s n (s.positions node.linkedCells)
      have hnext : sweep (steps + 1) w s = sweep steps next s :=
        (sweep_next hp hnode steps).trans (bind_ok (sweepSlots_apply hcells n _))
      have htally : Tally s r next ((done ++ [n]).flatMap (s.store.heldBy .attached) : List NodeId)
          ((done ++ [n]).flatMap s.faults : List LinkViolation) := by
        have hvisit := (⟨hw.nodup, hw.root, hw.seen, hw.found⟩ :
          Tally s r { w with pending } _ _).visitAll n (s.positions node.linkedCells)
        rw [filterMap_positions, Multiset.coe_eq_coe.mpr (s.perm_faults n _), add_comm,
          add_comm (Multiset.ofList _) (Multiset.ofList (done.flatMap s.faults))] at hvisit
        simp only [List.flatMap_append, List.flatMap_cons, List.flatMap_nil, List.append_nil,
          ← Multiset.coe_add, faults, hheldBy] at hvisit ⊢
        exact hvisit
      obtain ⟨new, hnewSeen, hnewPending, hnew⟩ :=
        ({ w with pending } : Sweep).visitAll_new s n (s.positions node.linkedCells)
      dsimp only at hnewSeen hnewPending
      rw [hp] at hseen hsteps
      rw [hnext]
      refine ih next (done ++ [n]) htally ?_ ?_ ?_
      · rw [hnewSeen, hnewPending]
        refine (hseen.append_left new).trans (Multiset.coe_eq_coe.mp ?_)
        simp only [← Multiset.coe_add, ← Multiset.cons_coe, ← Multiset.singleton_add,
          Multiset.coe_nil]
        abel
      · intro m hmem
        rw [hnewSeen] at hmem
        rcases List.mem_append.mp hmem with hmem | hmem
        · have hheld : m ∈ s.store.heldBy .attached n := by
            rw [hheldBy, ← filterMap_positions]
            exact List.mem_filterMap.mpr ⟨_, hnew m hmem, by simp⟩
          exact hn.tail hheld
        · exact hbelow m hmem
      · rw [hnewSeen, hnewPending]
        simp only [List.length_append, List.length_cons] at hsteps ⊢
        omega

/-! What the sweep has come to at its end. -/

/-- What was found again, sorted by operation. -/
theorem filterMap_again {s : Session} {r : NodeId} {order held : List NodeId}
    {again : Multiset NodeId} (horder : order.Nodup) (hheld : ∀ c ∈ held, c ∈ order)
    (h : (held : Multiset NodeId) = again + (order.erase r : List NodeId)) :
    again.filterMap s.sharing? = (order.flatMap (s.sharings r held) : List LinkViolation) := by
  have hcount : ∀ (l : List NodeId) (k : NodeId → Nat) (a : NodeId), l.Nodup →
      (l.flatMap fun c => List.replicate (k c) c).count a = if a ∈ l then k a else 0 := by
    intro l k a hl
    induction l with
    | nil => simp
    | cons b l ih =>
      obtain ⟨hb, hl⟩ := List.nodup_cons.mp hl
      rw [List.flatMap_cons, List.count_append, ih hl, List.count_replicate]
      by_cases hab : b = a
      · subst hab
        simp [hb]
      · have hba : a ≠ b := fun he => hab he.symm
        simp [hab, hba]
  have hagain : again = (order.flatMap fun c =>
      List.replicate (held.count c - if c = r then 0 else 1) c : List NodeId) := by
    ext a
    rw [Multiset.coe_count, hcount order _ a horder]
    have ha := congrArg (Multiset.count a) h
    rw [Multiset.count_add, Multiset.coe_count, Multiset.coe_count] at ha
    by_cases hmem : a ∈ order
    · rw [if_pos hmem]
      have hone : (order.erase r).count a = if a = r then 0 else 1 := by
        by_cases har : a = r
        · subst har
          rw [if_pos rfl, List.count_eq_zero]
          exact horder.not_mem_erase
        · rw [if_neg har, List.count_erase_of_ne har]
          exact List.count_eq_one_of_mem horder hmem
      omega
    · have hzero : held.count a = 0 := List.count_eq_zero.mpr fun hc => hmem (hheld a hc)
      rw [if_neg hmem]
      omega
  rw [hagain, Multiset.filterMap_coe]
  congr 1
  rw [List.filterMap_flatMap]
  rfl

theorem childFaults_eq_nil_iff {s : Session} {r p : NodeId} (hm : s.store.Materialized r)
    (hp : s.store.Below r p) : (s.store.heldBy .attached p).filterMap (s.childFault? p) = [] ↔
      ∀ c ∈ s.store.heldBy .attached p, s.store.Linked p c := by
  obtain ⟨parent, hparent, -⟩ := hm p hp
  rw [List.filterMap_eq_nil_iff]
  refine forall₂_congr fun c hc => ?_
  obtain ⟨child, hchild, -⟩ := hm c (hp.tail hc)
  exact childFault?_eq_none hparent hchild

section

variable {s : Session} {r : NodeId} {order : List NodeId} (hm : s.store.Materialized r)
  (hbelow : ∀ n, n ∈ order ↔ s.store.Below r n)
include hbelow

theorem mem_held_iff {c : NodeId} : c ∈ order.flatMap (s.store.heldBy .attached) ↔
    ∃ p, s.store.Below r p ∧ c ∈ s.store.heldBy .attached p := by
  simp only [List.mem_flatMap, hbelow]

include hm

/-- No operation is found again exactly where each is held once, and the root nowhere. -/
theorem sharings_eq_nil_iff :
    (∀ c ∈ order, s.sharings r (order.flatMap (s.store.heldBy .attached)) c = []) ↔
      (order.flatMap (s.store.heldBy .attached)).Nodup ∧
        r ∉ order.flatMap (s.store.heldBy .attached) := by
  have hcounts : (∀ c ∈ order, s.sharings r (order.flatMap (s.store.heldBy .attached)) c = []) ↔
      ∀ c ∈ order, (order.flatMap (s.store.heldBy .attached)).count c ≤ if c = r then 0 else 1 := by
    refine forall₂_congr fun c hc => ?_
    obtain ⟨node, hnode, -⟩ := hm c ((hbelow c).mp hc)
    have hkind : s.sharing? c = some (.sharedNode node.kind) := by simp [sharing?, kind?, hnode]
    rw [sharings, List.filterMap_replicate_of_some hkind, List.replicate_eq_nil_iff]
    omega
  rw [hcounts]
  constructor
  · intro h
    constructor
    · rw [List.nodup_iff_count_le_one]
      intro c
      by_cases hc : c ∈ order
      · refine (h c hc).trans ?_
        split <;> omega
      · rw [List.count_eq_zero.mpr fun hmem => ?_]
        · omega
        · obtain ⟨p, hp, hcp⟩ := (mem_held_iff hbelow).mp hmem
          exact hc ((hbelow c).mpr (hp.tail hcp))
    · have hcount := h r ((hbelow r).mpr .refl)
      rwa [if_pos rfl, Nat.le_zero, List.count_eq_zero] at hcount
  · rintro ⟨hnodup, hroot⟩ c -
    split
    · next heq =>
      rw [heq, List.count_eq_zero.mpr hroot]
    · exact List.nodup_iff_count_le_one.mp hnodup c

/-- Nothing is wrong exactly where there is a tree. -/
theorem isTree_iff (horder : order.Nodup) :
    (∀ p ∈ order, s.faults p = []) ∧
      (∀ c ∈ order, s.sharings r (order.flatMap (s.store.heldBy .attached)) c = []) ↔ s.IsTree r := by
  have hfaults : (∀ p ∈ order, s.faults p = []) ↔
      ∀ p, s.store.Below r p →
        (∀ c ∈ s.store.heldBy .attached p, s.store.Linked p c) ∧
          ∀ c ∈ s.store.heldBy .detached p, s.store.link? c = none := by
    refine forall_congr' fun p => ?_
    rw [hbelow p]
    refine forall_congr' fun hp => ?_
    obtain ⟨parent, hparent, -⟩ := hm p hp
    rw [faults, List.append_eq_nil_iff, childFaults_eq_nil_iff hm hp, List.filterMap_eq_nil_iff]
    exact and_congr_right fun _ => forall₂_congr fun c hc => valueFault?_eq_none hparent
  rw [hfaults, sharings_eq_nil_iff hm hbelow]
  constructor
  · rintro ⟨hf, hnodup, hroot⟩
    refine ⟨fun p hp c hc => ((hf p hp).1 c hc).1, fun p hp c hc => ((hf p hp).1 c hc).2, ?_, ?_,
      fun p hp hmem => hroot ((mem_held_iff hbelow).mpr ⟨p, hp, hmem⟩), fun p hp => (hf p hp).2⟩
    · exact fun p hp => (List.nodup_flatMap.mp hnodup).1 p ((hbelow p).mpr hp)
    · intro p q c hp hq hcp hcq
      exact Option.some.inj (((hf p hp).1 c hcp).1.symm.trans ((hf q hq).1 c hcq).1)
  · intro h
    refine ⟨fun p hp => ⟨fun c hc => ⟨h.linked p hp c hc, h.models p hp c hc⟩, h.values p hp⟩, ?_, ?_⟩
    · refine List.nodup_flatMap.mpr ⟨fun p hp => h.once p ((hbelow p).mp hp), ?_⟩
      refine horder.pairwise_of_forall_ne fun p hp q hq hne c hcp hcq => ?_
      exact hne (h.apart p q c ((hbelow p).mp hp) ((hbelow q).mp hq) hcp hcq)
    · intro hmem
      obtain ⟨p, hp, hrp⟩ := (mem_held_iff hbelow).mp hmem
      exact h.root p hp hrp

end

/-- Where every slot that is found has its value, checking a tree ends and reports every fault of every
position, and every operation that is held again once for each time. -/
theorem verifyTree_reports {s : Session} {r : NodeId} (hm : s.store.Materialized r) :
    ∃ (order : List NodeId) (vs : List LinkViolation) (root : Kind),
      order.Nodup ∧ (∀ n, n ∈ order ↔ s.store.Below r n) ∧ s.kind? r = some root ∧
      vs.Perm (order.flatMap s.faults ++
        order.flatMap (s.sharings r (order.flatMap (s.store.heldBy .attached)))) ∧
      verifyTree r s = (.ok vs, if vs = [] then s else
        { s with events := .verificationFailed vs.length root :: s.events }) := by
  have hstart : Tally s r ⟨[r], [r], []⟩ (([] : List NodeId).flatMap (s.store.heldBy .attached) :
      List NodeId) (([] : List NodeId).flatMap s.faults : List LinkViolation) :=
    ⟨by simp, by simp, by simp, 0, by simp, by simp⟩
  have hbudget : s.store.nodes.size ≤ s.store.budget :=
    le_trans (Nat.le_add_right _ _) s.store.extent_le_budget
  obtain ⟨w, order, hw, htally, hperm, hbelow⟩ := sweep_exact hm (s.store.budget + 2) ⟨[r], [r], []⟩ []
    hstart (by simp) (by simp [Store.Below, Relation.ReflTransGen.refl]) (by simp; omega)
  have horder : order.Nodup := hperm.nodup_iff.mp htally.nodup
  have hiff : ∀ n, n ∈ order ↔ s.store.Below r n := by
    refine fun n => ⟨hbelow n, fun h => ?_⟩
    induction h with
    | refl => exact hperm.mem_iff.mp htally.root
    | tail _ hc ih => exact hperm.mem_iff.mp (htally.seen _ (by simpa using ⟨_, ih, hc⟩))
  obtain ⟨again, hheld, hfound⟩ := htally.found
  obtain ⟨root, hroot, -⟩ := hm r .refl
  have hheldMem : ∀ c ∈ order.flatMap (s.store.heldBy .attached), c ∈ order := fun c hc =>
    hperm.mem_iff.mp (htally.seen c hc)
  have hreports : w.found.reverse.Perm (order.flatMap s.faults ++
      order.flatMap (s.sharings r (order.flatMap (s.store.heldBy .attached)))) := by
    rw [Multiset.coe_eq_coe.mpr (hperm.erase r)] at hheld
    rw [filterMap_again horder hheldMem hheld, Multiset.coe_add, Multiset.coe_eq_coe] at hfound
    exact w.found.reverse_perm.trans hfound
  refine ⟨order, w.found.reverse, root.kind, horder, hiff, by simp [kind?, hroot], hreports, ?_⟩
  unfold verifyTree
  rw [bind_ok (read_apply s), bind_ok hw]
  by_cases hnil : w.found.reverse = []
  · simp [hnil]
  · have hfacts : s.linkFacts? r = some ⟨root.kind, root.header.model⟩ := by
      simp [linkFacts?, hroot]
    have hsome : w.found.reverse.isEmpty = false := List.isEmpty_eq_false_iff.mpr hnil
    simp only [hsome, Bool.false_eq_true, not_false_eq_true, if_true, bind_apply, read_apply,
      hfacts, emit_apply, pure_apply, if_neg hnil]

/-- Such a check finds nothing exactly where there is a tree. -/
theorem reports_eq_nil_iff {s : Session} {r : NodeId} (hm : s.store.Materialized r)
    {order : List NodeId} {vs : List LinkViolation} (horder : order.Nodup)
    (hbelow : ∀ n, n ∈ order ↔ s.store.Below r n)
    (hvs : vs.Perm (order.flatMap s.faults ++
      order.flatMap (s.sharings r (order.flatMap (s.store.heldBy .attached))))) :
    vs = [] ↔ s.IsTree r := by
  rw [← isTree_iff hm hbelow horder, ← List.flatMap_eq_nil_iff, ← List.flatMap_eq_nil_iff,
    ← List.append_eq_nil_iff]
  exact ⟨fun h => List.nil_perm.mp (h ▸ hvs), fun h => List.perm_nil.mp (h ▸ hvs)⟩

/-- Where every slot that is found has its value, checking a tree ends and reports every fault of every
position, and every operation that is held again once for each time; it reports nothing exactly where
there is a tree, and warns where it reports something. -/
theorem verifyTree_exact (s : Session) (r : NodeId) (hm : s.store.Materialized r) :
    ∃ (order : List NodeId) (vs : List LinkViolation) (root : Kind) (t : Session),
      order.Nodup ∧ (∀ n, n ∈ order ↔ s.store.Below r n) ∧
      verifyTree r s = (.ok vs, t) ∧
      vs.Perm (order.flatMap s.faults ++
        order.flatMap (s.sharings r (order.flatMap (s.store.heldBy .attached)))) ∧
      (vs = [] ↔ s.IsTree r) ∧ s.kind? r = some root ∧
      t = if vs = [] then s else { s with events := .verificationFailed vs.length root :: s.events } := by
  obtain ⟨order, vs, root, horder, hbelow, hroot, hvs, hverify⟩ := verifyTree_reports hm
  exact ⟨order, vs, root, _, horder, hbelow, hverify, hvs, reports_eq_nil_iff hm horder hbelow hvs, hroot,
    rfl⟩

/-- A block that holds another one twice, built without checks. -/
def heldTwice : Session :=
  let header : Header := { locus := ⟨⟨0⟩, Span.make 0 0⟩ }
  let locals : List AttributeExpr := [.value (.handles .localVar [])]
  (start false).after
    [.build (.build (.mk (some "a") header .block none [.filled []] locals)),
      .build (.build (.mk (some "b") header .block none [.filled [.named "a", .named "a"]] locals))]

theorem verifyTree_exact_heldTwice :
    heldTwice.store.Materialized 1 ∧ ∃ vs t, verifyTree 1 heldTwice = (.ok vs, t) ∧ vs ≠ [] := by
  have hm : heldTwice.store.Materialized 1 := .of_closed [1, 0] (by decide) (by decide)
  obtain ⟨order, vs, root, t, -, -, hverify, -, hempty, -, -⟩ := verifyTree_exact heldTwice 1 hm
  refine ⟨hm, vs, t, hverify, fun h => ?_⟩
  have honce := (hempty.mp h).once 1 .refl
  exact absurd honce (by decide)

end Session
end BoundTree
