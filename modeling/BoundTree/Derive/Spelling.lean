import BoundTree.Derive.Item

/-!
Types as they are spelled, before it is known what their words mean. Words joined by double colons are
not always the segments of a path: where the first one is a keyword that stands before a type, what
follows is a path that starts with double colons.
-/
namespace BoundTree.Derive

inductive Spelling
  /-- Words joined by double colons, the last one with an argument in angle brackets. -/
  | path (words : List String) (argument : Option Spelling)
  | reference (target : Spelling)
  /-- Every item is followed by a comma. -/
  | tuple (items : List Spelling)
  deriving Repr

/-- A piece may hold double colons itself. -/
def Spelling.ofPieces (pieces : List String) (argument : Option Spelling) : Spelling :=
  .path ((Path.split ("::".intercalate pieces).toList).map String.ofList) argument

namespace TypeExpr

/-- Nothing follows these words in a segment. -/
def takesArgument (last : Ident) : Bool := last.text ∉ ["super", "self", "crate", "try"]

/-- The segments of a path that takes an argument, if there is one, at its last segment. -/
def segments? (words : List String) (argument : Option TypeArgument) : Option (List Ident) := do
  let segments ← words.mapM Ident.ofWord?
  let last ← segments.getLast?
  if segments.all Ident.isSegment && (argument.isNone || takesArgument last) then some segments
  else none

def ofGlobal? (words : List String) (argument : Option TypeArgument) : Option TypeExpr :=
  (segments? words argument).map fun segments => .path true segments argument

def ofBound? (mark : BoundMark) (words : List String) (argument : Option TypeArgument) :
    Option TypeExpr :=
  (segments? words argument).map fun segments => .bound mark segments argument

/-- A path starts at a name or a place, or with double colons that nothing stands before. -/
def ofWords? (words : List String) (argument : Option TypeArgument) : Option TypeExpr := do
  if words = ["_"] && argument.isNone then return .inferred
  match words with
  | "" :: rest => ofGlobal? rest argument
  | "dyn" :: rest => ofBound? .dynamic rest argument
  | "impl" :: rest => ofBound? .some rest argument
  | _ =>
    let segments ← segments? words argument
    if segments.head?.any Ident.namesPlace then return .path false segments argument else none

/-- A lifetime or the mark of a mutable reference may stand between the reference and its target. -/
def referenceOf? (words : List String) (argument : Option TypeArgument) : Option TypeExpr :=
  match words with
  | first :: rest =>
    match Lifetime.ofString? first with
    | some l => (ofGlobal? rest argument).map (.reference (some l) false)
    | none =>
      if first = "mut" then (ofGlobal? rest argument).map (.reference none true)
      else (ofWords? words argument).map (.reference none false)
  | [] => none

mutual

/-- What a spelling means where a type stands. -/
def ofSpelling? : Spelling → Option TypeExpr
  | .path words argument => do ofWords? words (← argument? argument)
  | .reference (.path words argument) => do referenceOf? words (← argument? argument)
  | .reference target => (ofSpelling? target).map (.reference none false)
  | .tuple items => (items? items).map .tuple

/-- In angle brackets a lifetime or a truth value may stand in place of a type. -/
def argument? : Option Spelling → Option (Option TypeArgument)
  | none => some none
  | some (.path [word] none) =>
    match Lifetime.ofString? word with
    | some l => some (some (.lifetime l))
    | none =>
      if word = "true" then some (some (.literal true))
      else if word = "false" then some (some (.literal false))
      else (ofWords? [word] none).map fun t => some (.type t)
  | some spelling => (ofSpelling? spelling).map fun t => some (.type t)

def items? : List Spelling → Option (List TypeExpr)
  | [] => some []
  | spelling :: rest => do return (← ofSpelling? spelling) :: (← items? rest)

end

/-- In a field without a name a type may stand behind the mark of a public field. -/
def ofField? : Spelling → Option TypeExpr
  | .path ("pub" :: rest) argument => do ofGlobal? rest (← argument? argument)
  | spelling => ofSpelling? spelling

end TypeExpr
end BoundTree.Derive
