import BoundTree.Text.Quoted

/-!
Generated code: blocks of members, where a function either runs a body or chooses among cases. It is
written as words with one space between them. A word is an identifier, a literal, one mark or one
bracket.
-/
namespace BoundTree.Derive

abbrev Words := List String

/-- The words of a text that has one space between them. -/
def words (text : String) : Words := text.splitOn " "

def parens (ws : Words) : Words := "(" :: ws ++ [")"]

def braces (ws : Words) : Words := "\x7b" :: ws ++ ["\x7d"]

def brackets (ws : Words) : Words := "[" :: ws ++ ["]"]

/-- With commas between the items, and none at the end. -/
def separated : List Words → Words
  | [] => []
  | [ws] => ws
  | ws :: rest => ws ++ "," :: separated rest

/-- A comment that documents what follows. -/
inductive Doc
  /-- A line of a fixed comment. -/
  | line (text : String)
  /-- A line made for the occasion. -/
  | made (text : String)
  deriving DecidableEq, Repr

namespace Doc

/-- A fixed line stands behind a blank, unless it is empty. -/
def literal : Doc → String
  | .line "" => "r\x22\x22"
  | .line text => "r\x22 " ++ text ++ "\x22"
  | .made text => Text.quoteString text

def words (d : Doc) : Words := "#" :: brackets ["doc", "=", d.literal]

end Doc

structure Arm where
  pattern : Words
  value : Words
  deriving DecidableEq, Repr

def Arm.words (a : Arm) : Words := a.pattern ++ ["=", ">"] ++ a.value ++ [","]

inductive Body
  | code (ws : Words)
  /-- The first case that fits counts. -/
  | choice (subject : Words) (arms : List Arm)
  deriving DecidableEq, Repr

def Body.words : Body → Words
  | .code ws => ws
  | .choice subject arms => "match" :: subject ++ braces (arms.flatMap Arm.words)

structure Function where
  docs : List Doc := []
  /-- Words in front of the function. -/
  modifiers : Words := []
  name : String
  generics : Words := []
  parameters : Words
  result : Option Words := none
  /-- A function that others have to supply has none. -/
  body : Option Body
  deriving DecidableEq, Repr

def Function.words (f : Function) : Words :=
  f.docs.flatMap Doc.words ++ f.modifiers ++ "fn" :: f.name :: f.generics ++ parens f.parameters
    ++ (f.result.elim [] fun r => ["-", ">"] ++ r)
    ++ (f.body.elim [";"] fun b => braces b.words)

inductive Member
  | const (docs : List Doc) (modifiers : Words) (name : String) (ty value : Words)
  | type (docs : List Doc) (name : String)
  | function (f : Function)
  deriving DecidableEq, Repr

def Member.words : Member → Words
  | .const docs modifiers name ty value =>
    docs.flatMap Doc.words ++ modifiers ++ "const" :: name :: ":" :: ty ++ "=" :: value ++ [";"]
  | .type docs name => docs.flatMap Doc.words ++ ["type", name, ";"]
  | .function f => f.words

/-- The functions among the members. -/
def Member.function? : Member → Option Function
  | .function f => some f
  | _ => none

structure Block where
  docs : List Doc := []
  head : Words
  members : List Member
  deriving DecidableEq, Repr

namespace Block

def words (b : Block) : Words :=
  b.docs.flatMap Doc.words ++ b.head ++ braces (b.members.flatMap Member.words)

def functions (b : Block) : List Function := b.members.filterMap Member.function?

end Block

def render (blocks : List Block) : String := " ".intercalate (blocks.flatMap Block.words)

end BoundTree.Derive
