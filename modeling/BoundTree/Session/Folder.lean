import BoundTree.Session.Read

/-!
Folders: consumers of a tree that say for the shapes they care about what is done there, and what is
done everywhere else. An operation is handed to the one handler of its shape, together with the way to
hand on others; a handler that hands on nothing ends the walk below it. A visitor is a folder whose
argument and result are what it has gathered so far.
-/
namespace BoundTree.Session

open Procedure

/-- What is done at an operation, given what is done at others. -/
abbrev Handler (α β : Type) : Type := (NodeId → α → Procedure β) → NodeId → Node → α → Procedure β

structure Folder (α β : Type) where
  /-- What is done at the shapes that the folder handles itself. -/
  method : Shape → Option (Handler α β)
  fallback : Handler α β

abbrev Visitor (σ : Type) : Type := Folder σ σ

/-- Slots are read one by one, each after the operations of those before it have been visited. -/
def threadCells {σ : Type} (visit : NodeId → σ → Procedure σ) : List CellId → σ → Procedure σ
  | [], a => pure a
  | c :: cells, a => do
    let a ← (← operations c).foldlM (fun a child => visit child a) a
    threadCells visit cells a

/-- Visits the children in evaluation order. -/
def walkChildren {σ : Type} (visit : NodeId → σ → Procedure σ) (n : NodeId) (a : σ) : Procedure σ := do
  threadCells visit (← childCells n) a

/-- The results at the children in evaluation order, each child being given the same argument. -/
def foldChildren {α β : Type} (visit : NodeId → α → Procedure β) (n : NodeId) (a : α) :
    Procedure (List β) :=
  walkChildren (fun child done => do return done ++ [← visit child a]) n []

namespace Folder

variable {α β : Type}

/-- The handler of a shape. -/
def handler (f : Folder α β) (s : Shape) : Handler α β := (f.method s).getD f.fallback

/-- Hands an operation to the handler of its shape, to a depth. -/
def acceptWithin (f : Folder α β) : Nat → NodeId → α → Procedure β
  | 0, _, _ => fail .exhausted
  | depth + 1, n, a => do
    let node ← ofOption .unknown ((← read).store.node? n)
    f.handler node.shape (f.acceptWithin depth) n node a

/-- Hands an operation to the handler of its shape. No path without a circle is longer than what the
store can come to hold. -/
def accept (f : Folder α β) (n : NodeId) (a : α) : Procedure β := do
  f.acceptWithin ((← read).store.budget + 1) n a

end Folder
end BoundTree.Session
