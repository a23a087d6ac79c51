import BoundTree.Text.Structured

/-!
Interned names. A table numbers its names in the order of their first interning; several handles may
share one table, and what one of them interns all of them see.
-/
namespace BoundTree

/-- A name by its place in the table it was interned in. -/
structure Symbol where
  index : Nat
  deriving DecidableEq, Repr

/-- The structural form counts from one. -/
def Symbol.debug (s : Symbol) : String := Text.applied "Spur" (toString (s.index + 1))

/-- The names of a table, the first interned first. -/
structure NameTable where
  names : Array String := #[]
  deriving DecidableEq, Repr

namespace NameTable

def get? (t : NameTable) (name : String) : Option Symbol :=
  (t.names.findIdx? (· == name)).map Symbol.mk

/-- A name that is in the table keeps its symbol; a new one goes to the end. -/
def intern (t : NameTable) (name : String) : Symbol × NameTable :=
  match t.get? name with
  | some s => (s, t)
  | none => (⟨t.names.size⟩, ⟨t.names.push name⟩)

def resolve? (t : NameTable) (s : Symbol) : Option String := t.names[s.index]?

def size (t : NameTable) : Nat := t.names.size

end NameTable

/-- Handles on tables; a handle is known by its number. -/
structure Interners where
  tables : Array NameTable := #[{}]
  handles : Array Nat := #[0]
  deriving DecidableEq, Repr

/-- A symbol that the table of a handle does not hold. -/
inductive InternerFault
  | outOfBounds
  deriving DecidableEq, Repr

def InternerFault.message : InternerFault → String
  | .outOfBounds => "Key out of bounds"

namespace Interners

/-- The table behind a handle. -/
def table? (p : Interners) (handle : Nat) : Option NameTable := do
  let t ← p.handles[handle]?
  p.tables[t]?

def intern (p : Interners) (handle : Nat) (name : String) : Option (Symbol × Interners) := do
  let t ← p.handles[handle]?
  let table ← p.tables[t]?
  let (s, table) := table.intern name
  return (s, { p with tables := p.tables.setIfInBounds t table })

/-- A further handle on the same table. -/
def clone (p : Interners) (handle : Nat) : Option (Nat × Interners) := do
  let t ← p.handles[handle]?
  return (p.handles.size, { p with handles := p.handles.push t })

/-- A handle on a new empty table. -/
def create (p : Interners) : Nat × Interners :=
  (p.handles.size, ⟨p.tables.push {}, p.handles.push p.tables.size⟩)

/-- The name of a symbol; a symbol the table does not hold is a fault. -/
def resolve (p : Interners) (handle : Nat) (s : Symbol) : Option (Except InternerFault String) := do
  let table ← p.table? handle
  return match table.resolve? s with
    | some name => .ok name
    | none => .error .outOfBounds

end Interners

inductive InternerStep
  | intern (name : String)
  | get (name : String)
  | resolve (s : Symbol)
  | resolveIfPresent (s : Symbol)
  | size
  | isEmpty
  | clone
  | create
  deriving DecidableEq, Repr

inductive InternerAnswer
  | interned (s : Symbol)
  | found (s : Option Symbol)
  | name (n : Option String)
  | number (n : Nat)
  | truth (b : Bool)
  | fault (f : InternerFault)
  deriving DecidableEq, Repr

namespace Interners

/-- A step on a handle that there is; nothing for any other handle. -/
def step (p : Interners) (handle : Nat) (e : InternerStep) : Option (InternerAnswer × Interners) := do
  let table ← p.table? handle
  match e with
  | .intern name =>
    let (s, p) ← p.intern handle name
    return (.interned s, p)
  | .get name => return (.found (table.get? name), p)
  | .resolve s =>
    match ← p.resolve handle s with
    | .ok name => return (.name (some name), p)
    | .error f => return (.fault f, p)
  | .resolveIfPresent s => return (.name (table.resolve? s), p)
  | .size => return (.number table.size, p)
  | .isEmpty => return (.truth (table.size == 0), p)
  | .clone =>
    let (n, p) ← p.clone handle
    return (.number n, p)
  | .create => let (n, p) := p.create; return (.number n, p)

/-- The answers of steps, unless one of them is on a handle that there is not. -/
def run? (p : Interners) : List (Nat × InternerStep) → Option (List InternerAnswer)
  | [] => some []
  | (handle, e) :: steps => do
    let (a, p) ← p.step handle e
    return a :: (← p.run? steps)

end Interners
end BoundTree
