import BoundTree.Json.Basic
import BoundTree.Json.Decimal

/-!
Reading interchange values from text. A value may be nested 127 deep, a string holds no bare control
character, and an escaped surrogate counts only as one half of a pair.
-/
namespace BoundTree.Json

abbrev Input := List Char

def isBlank (c : Char) : Bool := c = ' ' || c = '\n' || c = '\t' || c = '\r'

def skipBlanks (input : Input) : Input := input.dropWhile isBlank

/-- The rest of the input after a fixed text. -/
def afterText? : List Char → Input → Option Input
  | [], input => some input
  | c :: text, d :: input => if c = d then afterText? text input else none
  | _ :: _, [] => none

def hexValue? (c : Char) : Option Nat :=
  if '0' ≤ c ∧ c ≤ '9' then some (c.toNat - '0'.toNat)
  else if 'a' ≤ c ∧ c ≤ 'f' then some (c.toNat - 'a'.toNat + 10)
  else if 'A' ≤ c ∧ c ≤ 'F' then some (c.toNat - 'A'.toNat + 10)
  else none

def readUnit? : Input → Option (Nat × Input)
  | a :: b :: c :: d :: rest => do
    let a ← hexValue? a
    let b ← hexValue? b
    let c ← hexValue? c
    let d ← hexValue? d
    return (((a * 16 + b) * 16 + c) * 16 + d, rest)
  | _ => none

/-- The character of an escape by code, from one unit or from a pair of surrogates. -/
def readCode? (input : Input) : Option (Char × Input) := do
  let (high, rest) ← readUnit? input
  if 0xD800 ≤ high ∧ high < 0xDC00 then
    match rest with
    | '\\' :: 'u' :: rest =>
      let (low, rest) ← readUnit? rest
      if 0xDC00 ≤ low ∧ low < 0xE000 then
        return (Char.ofNat (0x10000 + (high - 0xD800) * 0x400 + (low - 0xDC00)), rest)
      else none
    | _ => none
  else if 0xDC00 ≤ high ∧ high < 0xE000 then none
  else return (Char.ofNat high, rest)

def shortEscape? (c : Char) : Option Char :=
  if c = '\x22' then some '\x22'
  else if c = '\\' then some '\\'
  else if c = '/' then some '/'
  else if c = 'b' then some '\x08'
  else if c = 'f' then some '\x0c'
  else if c = 'n' then some '\n'
  else if c = 'r' then some '\r'
  else if c = 't' then some '\t'
  else none

/-- The characters up to the closing mark. -/
def readChars? : Nat → Input → Option (List Char × Input)
  | 0, _ => none
  | _ + 1, [] => none
  | fuel + 1, c :: rest =>
    if c = '\x22' then some ([], rest)
    else if c = '\\' then
      match rest with
      | 'u' :: rest => do
        let (c, rest) ← readCode? rest
        let (cs, rest) ← readChars? fuel rest
        return (c :: cs, rest)
      | e :: rest => do
        let c ← shortEscape? e
        let (cs, rest) ← readChars? fuel rest
        return (c :: cs, rest)
      | [] => none
    else if c.toNat < 0x20 then none
    else do
      let (cs, rest) ← readChars? fuel rest
      return (c :: cs, rest)

def readString? (input : Input) : Option (String × Input) := do
  let (cs, rest) ← readChars? (input.length + 1) input
  return (String.ofList cs, rest)

def digitsOf (input : Input) : List Char × Input :=
  (input.takeWhile Char.isDigit, input.dropWhile Char.isDigit)

/-- The exponent part, when there is one. -/
def readExponent? : Input → Option (Option Int × Input)
  | c :: rest =>
    if c = 'e' ∨ c = 'E' then
      let (negative, rest) := match rest with
        | '-' :: rest => (true, rest)
        | '+' :: rest => (false, rest)
        | _ => (false, rest)
      match digitsOf rest with
      | ([], _) => none
      | (ds, rest) =>
        let size : Int := ds.foldl (fun n d => n * 10 + digitValue d) 0
        some (some (if negative then -size else size), rest)
    else some (none, c :: rest)
  | [] => some (none, [])

/-- The fraction part without its point, when there is one. -/
def readFraction? : Input → Option (Option (List Char) × Input)
  | '.' :: rest =>
    match digitsOf rest with
    | ([], _) => none
    | (ds, rest) => some (some ds, rest)
  | rest => some (none, rest)

/-- Without fraction and exponent a number is an integer if it fits a word and is not minus zero. -/
def readNumber? (input : Input) : Option (Json × Input) := do
  let (negative, input) := match input with
    | '-' :: rest => (true, rest)
    | rest => (false, rest)
  let (whole, rest) := digitsOf input
  if whole.isEmpty ∨ (whole.head? = some '0' ∧ 1 < whole.length) then none
  else
    let (fraction, rest) ← readFraction? rest
    let (exponent, rest) ← readExponent? rest
    let size : Nat := whole.foldl (fun n d => n * 10 + digitValue d) 0
    let n : Int := if negative then -size else size
    if fraction.isNone ∧ exponent.isNone ∧ InWord n ∧ ¬(negative ∧ size = 0) then
      return (.int n, rest)
    else
      let scaled := (Scaled.whole ⟨0, 0⟩ whole).fraction (fraction.getD [])
      let x ← Scaled.toBinary64? negative ⟨scaled.digits, scaled.exponent + exponent.getD 0⟩
      return (.float x, rest)

/-- Of the members with one name the last one stays. -/
def lastMembers : List (String × Json) → List (String × Json)
  | [] => []
  | m :: rest =>
    let kept := lastMembers rest
    if kept.any (·.1 == m.1) then kept else m :: kept

mutual

/-- The first argument bounds the steps, the second the nesting. -/
def readValue? : Nat → Nat → Input → Option (Json × Input)
  | 0, _, _ => none
  | fuel + 1, depth, input =>
    match skipBlanks input with
    | [] => none
    | c :: rest =>
      if c = 'n' then (afterText? ['u', 'l', 'l'] rest).map (Json.null, ·)
      else if c = 't' then (afterText? ['r', 'u', 'e'] rest).map (Json.bool true, ·)
      else if c = 'f' then (afterText? ['a', 'l', 's', 'e'] rest).map (Json.bool false, ·)
      else if c = '\x22' then (readString? rest).map fun (s, rest) => (Json.str s, rest)
      else if c = '[' then
        match depth with
        | 0 => none
        | depth + 1 =>
          match skipBlanks rest with
          | ']' :: rest => some (.arr [], rest)
          | rest => (readItems? fuel depth rest).map fun (items, rest) => (Json.arr items, rest)
      else if c = '\x7b' then
        match depth with
        | 0 => none
        | depth + 1 =>
          match skipBlanks rest with
          | '\x7d' :: rest => some (.obj [], rest)
          | rest => (readMembers? fuel depth rest).map fun (ms, rest) =>
            (Json.obj (lastMembers ms), rest)
      else readNumber? (c :: rest)

/-- One item, and the rest up to the closing bracket. -/
def readItems? : Nat → Nat → Input → Option (List Json × Input)
  | 0, _, _ => none
  | fuel + 1, depth, input => do
    let (item, rest) ← readValue? fuel depth input
    match skipBlanks rest with
    | ']' :: rest => return ([item], rest)
    | ',' :: rest =>
      let (items, rest) ← readItems? fuel depth rest
      return (item :: items, rest)
    | _ => none

/-- One member, and the rest up to the closing brace. -/
def readMembers? : Nat → Nat → Input → Option (List (String × Json) × Input)
  | 0, _, _ => none
  | fuel + 1, depth, input =>
    match skipBlanks input with
    | '\x22' :: rest => do
      let (name, rest) ← readString? rest
      match skipBlanks rest with
      | ':' :: rest =>
        let (value, rest) ← readValue? fuel depth rest
        match skipBlanks rest with
        | '\x7d' :: rest => return ([(name, value)], rest)
        | ',' :: rest =>
          let (members, rest) ← readMembers? fuel depth rest
          return ((name, value) :: members, rest)
        | _ => none
      | _ => none
    | _ => none

end

/-- Every step takes a character, so the length of the text bounds them. -/
def parse? (text : String) : Option Json :=
  let input := text.toList
  match readValue? (2 * input.length + 2) 127 input with
  | some (j, rest) => if (skipBlanks rest).isEmpty then some j else none
  | none => none

end BoundTree.Json
