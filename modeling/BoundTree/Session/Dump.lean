import BoundTree.Session.Folder

/-!
The dump of a tree: a line for every operation, below it a line for every child slot, one level deeper,
and below that the operations of the slot, another level deeper. A level is two spaces.
-/
namespace BoundTree.Session

open Procedure

structure Line where
  level : Nat
  text : String
  deriving DecidableEq, Repr

def Line.render (l : Line) : String :=
  String.ofList (List.replicate (2 * l.level) ' ') ++ l.text ++ "\n"

/-- Kind, type, constant, whether it is implicit, where it comes from, and the plain attributes. -/
def factsText (kind : Kind) (h : Header) (attributes : List (String × String)) : String :=
  kind.name
    ++ (h.resultType.elim "" fun t => " type=" ++ t.display)
    ++ (h.constant.elim "" fun c => " constant=" ++ c.display)
    ++ (if h.isImplicit then " implicit" else "")
    ++ " @ " ++ h.locus.display
    ++ String.join (attributes.map fun a => " " ++ a.1 ++ "=" ++ a.2)

def nodeText (node : Node) : String :=
  factsText node.kind node.header (node.payload.attributes.map fun a => (a.1, a.2.debug))

def slotText (name : String) (isEmpty : Bool) : String :=
  name ++ if isEmpty then ": <empty>" else ":"

/-- A slot is read after the slots before it have been dumped. -/
def dumpSlots (visit : NodeId → Nat → Procedure (List Line)) (level : Nat) :
    List (String × CellId) → Procedure (List Line)
  | [] => pure []
  | (name, c) :: cells => do
    let ops ← operations c
    let below ← ops.mapM (visit · (level + 1))
    return ⟨level, slotText name ops.isEmpty⟩ :: below.flatten ++ (← dumpSlots visit level cells)

/-- The argument is the level of the operation. -/
def dumping : Folder Nat (List Line) where
  method _ := none
  fallback visit n node level := do
    return ⟨level, nodeText node⟩ :: (← dumpSlots visit (level + 1) (← namedChildCells n))

def dumpLines (n : NodeId) : Procedure (List Line) := dumping.accept n 0

def dump (n : NodeId) : Procedure String := do
  return String.join ((← dumpLines n).map Line.render)

end BoundTree.Session
