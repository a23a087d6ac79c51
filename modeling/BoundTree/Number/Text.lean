import BoundTree.Number.Shortest

/-!
The two written forms of a double: plainly positional, and with a fraction or an exponent always
present so that it never looks like an integer.
-/
namespace BoundTree.Binary64

def zeros (n : Nat) : String := String.ofList (List.replicate n '0')

/-- Positional, without an exponent and with at least `places` places after the point. -/
def Decimal.positional (x : Decimal) (places : Nat) : String :=
  let ds := String.ofList (Nat.toDigits 10 x.digits)
  if 0 ≤ x.exponent then
    ds ++ zeros x.exponent.toNat ++ (if places = 0 then "" else "." ++ zeros places)
  else
    let after := (-x.exponent).toNat
    let padded := zeros (after + 1 - ds.length) ++ ds
    let whole := padded.length - after
    String.ofList (padded.toList.take whole) ++ "." ++ String.ofList (padded.toList.drop whole)

/-- One digit before the point, and the exponent without a plus sign. -/
def Decimal.scientific (x : Decimal) : String :=
  match Nat.toDigits 10 x.digits with
  | [] => ""
  | first :: rest =>
    let exponent := toString (x.exponent + rest.length)
    let fraction := if rest.isEmpty then "" else "." ++ String.ofList rest
    String.ofList [first] ++ fraction ++ "e" ++ exponent

/-- Whether the absolute value is below `10 ^ -4` or at least `10 ^ 16`. -/
def Decimal.isExtreme (x : Decimal) : Bool :=
  let magnitude := x.exponent + digitCount x.digits - 1
  magnitude < -4 || 16 ≤ magnitude

def signed (x : Binary64) (text : String) : String := if x.isNegative then "-" ++ text else text

/-- The plain form: positional whatever the size. -/
def display (x : Binary64) : String :=
  if x.isNaN then "NaN"
  else if x.isInfinite then x.signed "inf"
  else if x.isZero then x.signed "0"
  else x.signed (x.shortest.positional 0)

/-- The form that is never mistaken for an integer: extreme values get an exponent. -/
def debug (x : Binary64) : String :=
  if x.isNaN then "NaN"
  else if x.isInfinite then x.signed "inf"
  else if x.isZero then x.signed "0.0"
  else
    let d := x.shortest
    x.signed (if d.isExtreme then d.scientific else d.positional 1)

end BoundTree.Binary64
