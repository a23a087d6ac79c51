import BoundTree.Session.Read

/-!
Checking a whole tree: every slot of every operation that is reached through child slots, each
operation once. What is found wrong is reported in the order in which it is found.
-/
namespace BoundTree.Session

open Procedure

structure Sweep where
  /-- The operations that were reached. -/
  seen : List NodeId
  /-- The operations whose slots are still to be checked, the next one first. -/
  pending : List NodeId
  /-- The violations, the latest first. -/
  found : List LinkViolation
  deriving DecidableEq, Repr

/-- A child that was reached before is shared. -/
def Sweep.reach (w : Sweep) (s : Session) (child : NodeId) : Sweep :=
  if child ∈ w.seen then
    match s.linkFacts? child with
    | some c => { w with found := .sharedNode c.kind :: w.found }
    | none => w
  else { w with seen := child :: w.seen, pending := child :: w.pending }

/-- One value of a slot; those of detached slots are not followed. -/
def Sweep.visit (w : Sweep) (s : Session) (owner : NodeId) (linkage : Linkage) (child : NodeId) :
    Sweep :=
  let w := match s.checkLink owner linkage child with
    | some v => { w with found := v :: w.found }
    | none => w
  match linkage with
  | .attached => w.reach s child
  | .detached => w

def sweepSlots (owner : NodeId) : List (Linkage × CellId) → Sweep → Procedure Sweep
  | [], w => pure w
  | (linkage, c) :: cells, w => do
    let ops ← operations c
    let s ← read
    sweepSlots owner cells (ops.foldl (fun w child => w.visit s owner linkage child) w)

/-- Operations are taken from the pending ones, the latest first. -/
def sweep : Nat → Sweep → Procedure Sweep
  | 0, _ => fail .exhausted
  | steps + 1, w =>
    match w.pending with
    | [] => pure w
    | n :: pending => do
      let cells := ((← read).store.node? n).elim [] (·.linkedCells)
      sweep steps (← sweepSlots n cells { w with pending })

/-- All violations in a tree. -/
def verifyTree (n : NodeId) : Procedure (List LinkViolation) := do
  let steps := (← read).store.budget + 2
  let w ← sweep steps ⟨[n], [n], []⟩
  let found := w.found.reverse
  if ¬found.isEmpty then
    match (← read).linkFacts? n with
    | some root => emit (.verificationFailed found.length root.kind)
    | none => pure ()
  return found

end BoundTree.Session
