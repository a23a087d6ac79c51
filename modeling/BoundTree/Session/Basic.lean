import BoundTree.Event
import BoundTree.Interner
import BoundTree.Store.Alive

/-!
A session: a store, the names under which it is used, what is in use at the moment, and the events so
far. A procedure on a session always ends in a session, whether it succeeds or not: what it did before
it failed stays.
-/
namespace BoundTree

/-- Something in use that keeps operations alive. -/
inductive Holder
  | node (n : NodeId)
  | cell (c : CellId)
  deriving DecidableEq, Repr

structure Session where
  store : Store := {}
  /-- Operations by name; a name bound again hides what it was bound to before. -/
  bindings : List (String × NodeId) := []
  /-- Slots by name that are not yet part of an operation. -/
  slots : List (String × CellId) := []
  /-- The label under which an operation is shown. -/
  labels : List (NodeId × String) := []
  /-- How many operations were labelled by number. -/
  numbered : Nat := 0
  /-- How often the producers of a name have run. -/
  counters : List (String × Nat) := []
  names : NameTable := {}
  held : List Holder := []
  /-- The latest event first. -/
  events : List Event := []
  /-- Whether links are checked when children are installed and published. -/
  verifies : Bool := true

/-- A failure that tears down whatever was under way. -/
inductive Panic
  | brokenLink (v : LinkViolation)
  /-- A producer could not make its value. -/
  | rejectedValue (e : ConstructionError)
  | unknownValue
  | malformedValue
  /-- A sum does not fit 64 bits. -/
  | overflow
  deriving DecidableEq, Repr

def Panic.message : Panic → String
  | .brokenLink v => v.message
  | .rejectedValue e => e.message
  | .unknownValue => "unknown"
  | .malformedValue => "bad_input"
  | .overflow => "attempt to add with overflow"

inductive Fault
  | rejected (e : ConstructionError)
  | panicked (p : Panic)
  /-- A name is not bound. -/
  | unknown
  | malformed
  /-- A walk went deeper than any tree in the store can be. -/
  | exhausted
  deriving DecidableEq, Repr

def Procedure (α : Type) : Type := Session → Except Fault α × Session

namespace Procedure

variable {α β : Type}

protected def pure (a : α) : Procedure α := fun s => (.ok a, s)

protected def bind (x : Procedure α) (f : α → Procedure β) : Procedure β := fun s =>
  match x s with
  | (.ok a, s) => f a s
  | (.error e, s) => (.error e, s)

instance : Monad Procedure where
  pure := Procedure.pure
  bind := Procedure.bind

@[simp] theorem pure_apply (a : α) (s : Session) : (pure a : Procedure α) s = (.ok a, s) := rfl

theorem bind_apply (x : Procedure α) (f : α → Procedure β) (s : Session) :
    (x >>= f) s = match x s with
      | (.ok a, s) => f a s
      | (.error e, s) => (.error e, s) := rfl

def fail (f : Fault) : Procedure α := fun s => (.error f, s)

@[simp] theorem fail_apply (f : Fault) (s : Session) : (fail f : Procedure α) s = (.error f, s) := rfl

def read : Procedure Session := fun s => (.ok s, s)

@[simp] theorem read_apply (s : Session) : read s = (.ok s, s) := rfl

/-- Changes the session by a function that also gives the result. -/
def update (f : Session → α × Session) : Procedure α := fun s => let (a, s) := f s; (.ok a, s)

def modify (f : Session → Session) : Procedure Unit := fun s => (.ok (), f s)

@[simp] theorem modify_apply (f : Session → Session) (s : Session) : modify f s = (.ok (), f s) := rfl

def ofOption (fault : Fault) : Option α → Procedure α
  | some a => pure a
  | none => fail fault

/-- Whatever the procedure comes to hold is let go at its end, also when it fails. -/
def releasing (x : Procedure α) : Procedure α := fun s =>
  let (r, t) := x s
  (r, { t with held := s.held })

def hold (h : Holder) : Procedure Unit := modify fun s => { s with held := h :: s.held }

def mapFault (f : Fault → Fault) (x : Procedure α) : Procedure α := fun s =>
  match x s with
  | (.ok a, s) => (.ok a, s)
  | (.error e, s) => (.error (f e), s)

def emit (e : Event) : Procedure Unit := modify fun s => { s with events := e :: s.events }

end Procedure

namespace Session

/-- The operations that the holders of the session keep alive directly. -/
def roots (s : Session) : List NodeId :=
  let ofCell c := (s.store.published? c).getD []
  s.bindings.map (·.2) ++ s.slots.flatMap (ofCell ·.2)
    ++ s.held.flatMap fun
      | .node n => [n]
      | .cell c => ofCell c

def isAlive (s : Session) (n : NodeId) : Bool := s.store.isAlive s.roots n

/-- The operation that another one was installed in, while it is alive. -/
def parent? (s : Session) (n : NodeId) : Option NodeId := do
  let node ← s.store.node? n
  let p ← node.parent
  if s.isAlive p then some p else none

def lookup (l : List (String × Nat)) (name : String) : Option Nat :=
  (l.find? (·.1 == name)).map (·.2)

def remove (l : List (String × Nat)) (name : String) : List (String × Nat) :=
  l.filter (·.1 != name)

def node? (s : Session) (id : String) : Option NodeId := lookup s.bindings id

def label (s : Session) (n : NodeId) : String :=
  ((s.labels.find? (·.1 == n)).map (·.2)).getD "?"

/-- Binds an operation to its name; without one it is labelled by number and bound to nothing. -/
def bind (s : Session) (id : Option String) (n : NodeId) : Session :=
  match id with
  | some id =>
    { s with
      bindings := (id, n) :: remove s.bindings id
      labels := (n, id) :: s.labels }
  | none =>
    { s with
      labels := (n, "#" ++ toString (s.numbered + 1)) :: s.labels
      numbered := s.numbered + 1 }

def count (s : Session) (name : String) : Session :=
  { s with counters := (name, (lookup s.counters name).getD 0 + 1) :: remove s.counters name }

def linkFacts? (s : Session) (n : NodeId) : Option LinkFacts :=
  (s.store.node? n).map fun node => ⟨node.kind, node.header.model⟩

/-- What is wrong between an operation and one that it holds. -/
def checkLink (s : Session) (owner : NodeId) (linkage : Linkage) (child : NodeId) :
    Option LinkViolation := do
  let o ← s.linkFacts? owner
  let c ← s.linkFacts? child
  let link := (s.store.node? child).bind (·.parent)
  match linkage with
  | .detached => if link.isSome then some (.unexpectedParent c.kind o.kind) else none
  | .attached =>
    if link ≠ some owner then
      some (.wrongParent c.kind o.kind (((s.parent? child).bind s.linkFacts?).map (·.kind)))
    else if ¬c.agree o then some (.modelMismatch c.kind o.kind c.model o.model)
    else none

end Session
end BoundTree
