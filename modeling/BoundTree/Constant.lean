import BoundTree.Number.Text
import BoundTree.Text.Quoted
import BoundTree.Text.Structured

/-!
Constants known before the program runs. A missing constant is unknown; `null` is known.
-/
namespace BoundTree

inductive Constant
  | null
  | bool (b : Bool)
  | char (c : Char)
  | int (n : Int64)
  | uint (n : UInt64)
  | float (x : Binary64)
  | string (s : String)
  deriving DecidableEq, Repr

namespace Constant

def isNull : Constant → Bool
  | .null => true
  | _ => false

def bool? : Constant → Option Bool
  | .bool b => some b
  | _ => none

/-- Unsigned integers that fit count as signed ones, and characters as their code points. -/
def int? : Constant → Option Int
  | .int n => some n.toInt
  | .uint n => if n.toNat < Nat.pow 2 63 then some n.toNat else none
  | .char c => some c.toNat
  | _ => none

def float? : Constant → Option Binary64
  | .float x => some x
  | _ => none

def string? : Constant → Option String
  | .string s => some s
  | _ => none

/-- Equality of values: doubles are equal as numbers. -/
def valueEq : Constant → Constant → Bool
  | .float x, .float y => x.numEq y
  | a, b => a == b

def display : Constant → String
  | .null => "null"
  | .bool b => Text.truth b
  | .char c => Text.quoteChar c
  | .int n => toString n.toInt
  | .uint n => toString n.toNat
  | .float x => x.display
  | .string s => Text.quoteString s

def debug : Constant → String
  | .null => "Null"
  | .bool b => Text.applied "Bool" (Text.truth b)
  | .char c => Text.applied "Char" (Text.quoteChar c)
  | .int n => Text.applied "Int" (toString n.toInt)
  | .uint n => Text.applied "UInt" (toString n.toNat)
  | .float x => Text.applied "Float" x.debug
  | .string s => Text.applied "String" (Text.quoteString s)

end Constant
end BoundTree
