import BoundTree.Text.GraphemeExtend
import BoundTree.Text.Printable

/-!
Quoted characters and strings. A character that is not printable, or that would attach to the one
before it, is written by its code point, so a quoted text never leaves its line.
-/
namespace BoundTree.Text

inductive QuoteMark
  | single
  | double
  deriving DecidableEq, Repr

def QuoteMark.char : QuoteMark → Char
  | .single => '\x27'
  | .double => '\x22'

/-- The code point in hexadecimal, between braces. -/
def escapeCode (c : Char) : List Char :=
  ['\\', 'u', '\x7b'] ++ Nat.toDigits 16 c.toNat ++ ['\x7d']

/-- Only the mark that surrounds the text is escaped, not the other one. -/
def escapeChar (mark : QuoteMark) (c : Char) : List Char :=
  if c = '\x00' then ['\\', '0']
  else if c = '\t' then ['\\', 't']
  else if c = '\r' then ['\\', 'r']
  else if c = '\n' then ['\\', 'n']
  else if c = '\\' then ['\\', '\\']
  else if c = mark.char then ['\\', c]
  else if isGraphemeExtend c || !isPrintable c then escapeCode c
  else [c]

def quotedChars (mark : QuoteMark) (cs : List Char) : List Char :=
  mark.char :: cs.flatMap (escapeChar mark) ++ [mark.char]

def quoteString (s : String) : String := String.ofList (quotedChars .double s.toList)

def quoteChar (c : Char) : String := String.ofList (quotedChars .single [c])

end BoundTree.Text
