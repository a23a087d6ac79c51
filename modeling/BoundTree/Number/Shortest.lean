import BoundTree.Number.Binary64

/-!
The fewest decimal digits that read back as a given double, and of those the nearest to it.
-/
namespace BoundTree.Binary64

/-- A positive decimal number `digits * 10 ^ exponent`. -/
structure Decimal where
  digits : Nat
  exponent : Int
  deriving DecidableEq, Repr

def digitCount (n : Nat) : Nat := (Nat.toDigits 10 n).length

/-- The greatest `e` with `10 ^ e ≤ num / den`. -/
def decimalExponent (num den : Nat) : Int :=
  if den ≤ num then digitCount (num / den) - 1
  else -(digitCount ((den + num - 1) / num - 1) : Int)

/-- The reals that round to a double, as fractions over one denominator. -/
structure Interval where
  low : Nat
  value : Nat
  high : Nat
  den : Nat
  closed : Bool
  deriving DecidableEq, Repr

/-- Below a power of two the neighbour is half as far away; the ends belong to an even double. -/
def interval (x : Binary64) : Interval :=
  let m := x.significand
  let up := Nat.pow 2 x.scale.toNat
  let down := Nat.pow 2 (-x.scale).toNat
  let below := if x.fraction = 0 && 1 < x.exponentField then 1 else 2
  ⟨(4 * m - below) * up, 4 * m * up, (4 * m + 2) * up, 4 * down, m % 2 == 0⟩

/-- The grid of multiples of `10 ^ e`, with numerator and denominator of its unit. -/
def gridUnit (e : Int) : Nat × Nat := (Nat.pow 10 e.toNat, Nat.pow 10 (-e).toNat)

def Interval.holds (i : Interval) (e : Int) (d : Nat) : Bool :=
  let (up, down) := gridUnit e
  let x := d * up * i.den
  let low := i.low * down
  let high := i.high * down
  if i.closed then low ≤ x && x ≤ high else low < x && x < high

/-- Of the two neighbours of the value on a grid the nearer one inside; a tie goes up. -/
def Interval.nearest? (i : Interval) (e : Int) : Option Nat :=
  let (up, down) := gridUnit e
  let d := i.value * down / (i.den * up)
  let rest := i.value * down % (i.den * up)
  match i.holds e d, i.holds e (d + 1) with
  | true, true => some (if 2 * rest < i.den * up then d else d + 1)
  | true, false => some d
  | false, true => some (d + 1)
  | false, false => none

/-- Zeros at the end go into the exponent. -/
def Decimal.trim : Nat → Decimal → Decimal
  | 0, x => x
  | n + 1, x => if x.digits % 10 = 0 ∧ x.digits ≠ 0 then trim n ⟨x.digits / 10, x.exponent + 1⟩ else x

/-- Seventeen digits always suffice, so the search ends with a hit. -/
def shortest (x : Binary64) : Decimal :=
  let i := x.interval
  let top := decimalExponent i.value i.den
  let hit := (List.range 17).findSome? fun (n : Nat) =>
    (i.nearest? (top - n)).map fun d => Decimal.trim 18 ⟨d, top - n⟩
  hit.getD ⟨i.value / i.den, 0⟩

end BoundTree.Binary64
