import BoundTree.Session.Read

/-!
Walks down and up. A walk down keeps the operations still to come on a stack; those below an operation
are read when it is its turn, so a walk that is not continued reads nothing more. A walk that would not
end, because operations hold or follow each other in a circle, is told apart from one that does.
-/
namespace BoundTree.Session

open Procedure

/-- The operations of that many steps, and the stack that is left. The children of the operation whose
turn it is go on top. -/
def walk : Nat → List NodeId → Procedure (List NodeId × List NodeId)
  | 0, pending => pure ([], pending)
  | _ + 1, [] => pure ([], [])
  | steps + 1, n :: pending => do
    let below ← children n none
    let (ops, rest) ← walk steps (below ++ pending)
    return (n :: ops, rest)

/-- Every operation is taken once for every path to it, and there are fewer paths than sets of places. -/
def walkAll (pending : List NodeId) : Procedure (List NodeId) := do
  let (ops, rest) ← walk (Nat.pow 2 ((← read).store.budget + 1)) pending
  if rest.isEmpty then return ops else fail .exhausted

def walkUpTo (limit : Option Nat) (pending : List NodeId) : Procedure (List NodeId) :=
  match limit with
  | none => walkAll pending
  | some steps => do return (← walk steps pending).1

/-- The operation and all below it, in pre-order. -/
def descendantsAndSelf (n : NodeId) (limit : Option Nat) : Procedure (List NodeId) :=
  walkUpTo limit [n]

/-- All operations below, in pre-order; the children are read even if none is asked for. -/
def descendants (n : NodeId) (limit : Option Nat) : Procedure (List NodeId) := do
  walkUpTo limit (← children n none)

/-- The chain of parents that are alive, the nearest first, up to a length. -/
def ancestorsUpTo (s : Session) : Nat → NodeId → List NodeId
  | 0, _ => []
  | k + 1, n =>
    match s.parent? n with
    | some p => p :: s.ancestorsUpTo k p
    | none => []

/-- The whole chain, which has an end if it is no longer than the store. -/
def ancestors? (s : Session) (n : NodeId) : Option (List NodeId) :=
  let chain := s.ancestorsUpTo (s.store.nodes.size + 1) n
  if chain.length ≤ s.store.nodes.size then some chain else none

def ancestors (n : NodeId) (limit : Option Nat) : Procedure (List NodeId) := do
  match limit with
  | none => ofOption .exhausted ((← read).ancestors? n)
  | some k => return (← read).ancestorsUpTo k n

/-- The topmost ancestor, or the operation itself. -/
def root (n : NodeId) : Procedure NodeId := do
  return (← ancestors n none).getLast?.getD n

def kind? (s : Session) (n : NodeId) : Option Kind := (s.store.node? n).map (·.kind)

/-- The nearest ancestor of a kind; the chain is followed no further. -/
def findAncestor? (n : NodeId) (k : Kind) : Procedure (Option NodeId) := do
  let s ← read
  match (s.ancestorsUpTo (s.store.nodes.size + 1) n).find? fun a => s.kind? a = some k with
  | some a => return some a
  | none => do
    let _ ← ancestors n none
    return none

end BoundTree.Session
