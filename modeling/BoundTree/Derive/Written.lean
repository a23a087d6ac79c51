import BoundTree.Derive.Code
import BoundTree.Derive.Item

/-!
Paths and types as they are written: in code as words, and in comments with blanks between marks but
none inside parentheses.
-/
namespace BoundTree.Derive

/-- Segments with double colons between them. -/
def segmentWords : List Ident → Words
  | [] => []
  | [i] => [i.text]
  | i :: rest => i.text :: ":" :: ":" :: segmentWords rest

def Path.words (p : Path) : Words :=
  (if p.isGlobal then [":", ":"] else []) ++ segmentWords p.segments

def Lifetime.words (l : Lifetime) : Words := ["\x27", l.name.text]

def Parameter.words : Parameter → Words
  | .lifetime l => l.words
  | .type name => [name.text]

/-- The parameters between angle brackets, lifetimes first. Each keeps the comma that followed it, so a
lifetime that was the last gets one and leaves one behind the types. -/
def parameterWords (ps : List Parameter) : Words :=
  if ps.isEmpty then [] else
    let (lifetimes, types) := ps.partition Parameter.isLifetime
    let lifetimeIsLast := ps.getLast?.any Parameter.isLifetime && !types.isEmpty
    "<" :: separated ((lifetimes ++ types).map Parameter.words)
      ++ (if lifetimeIsLast then [","] else []) ++ [">"]

mutual

def TypeExpr.words : TypeExpr → Words
  | .path isGlobal segments argument => Path.words ⟨isGlobal, segments⟩ ++ argumentWords argument
  | .bound mark segments argument =>
    mark.word :: Path.words ⟨true, segments⟩ ++ argumentWords argument
  | .reference lifetime isMutable target =>
    "&" :: (lifetime.elim [] Lifetime.words) ++ (if isMutable then ["mut"] else []) ++ target.words
  | .tuple items => parens (itemWords items)
  | .inferred => ["_"]

def argumentWords : Option TypeArgument → Words
  | none => []
  | some (.type t) => "<" :: t.words ++ [">"]
  | some (.lifetime l) => "<" :: l.words ++ [">"]
  | some (.literal b) => ["<", toString b, ">"]

/-- Every item is followed by a comma, the last one too. -/
def itemWords : List TypeExpr → Words
  | [] => []
  | t :: rest => t.words ++ "," :: itemWords rest

end

def Lifetime.text (l : Lifetime) : String := "\x27" ++ l.name.text

def Path.text (p : Path) : String :=
  (if p.isGlobal then ":: " else "") ++ " :: ".intercalate (p.segments.map (·.text))

mutual

def TypeExpr.text : TypeExpr → String
  | .path isGlobal segments argument => Path.text ⟨isGlobal, segments⟩ ++ argumentText argument
  | .bound mark segments argument =>
    mark.word ++ " " ++ Path.text ⟨true, segments⟩ ++ argumentText argument
  | .reference lifetime isMutable target =>
    "& " ++ (lifetime.elim "" fun l => l.text ++ " ") ++ (if isMutable then "mut " else "")
      ++ target.text
  | .tuple items => "(" ++ " ".intercalate (itemTexts items) ++ ")"
  | .inferred => "_"

def argumentText : Option TypeArgument → String
  | none => ""
  | some (.type t) => " < " ++ t.text ++ " >"
  | some (.lifetime l) => " < " ++ l.text ++ " >"
  | some (.literal b) => " < " ++ toString b ++ " >"

def itemTexts : List TypeExpr → List String
  | [] => []
  | t :: rest => (t.text ++ " ,") :: itemTexts rest

end

end BoundTree.Derive
