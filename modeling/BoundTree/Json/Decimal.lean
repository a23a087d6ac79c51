import BoundTree.Number.Binary64

/-!
Reading a decimal number as a double in two roundings: its leading digits, as many as fit in 64 bits,
to the nearest double, and that times or divided by the nearest double to the power of ten.
-/
namespace BoundTree.Json

/-- The leading digits that fit in 64 bits, and the power of ten they are to be scaled by. -/
structure Scaled where
  digits : Nat
  exponent : Int
  deriving DecidableEq, Repr

def digitValue (c : Char) : Nat := c.toNat - '0'.toNat

/-- A digit before the point that no longer fits only raises the power of ten. -/
def Scaled.whole (x : Scaled) : List Char → Scaled
  | [] => x
  | c :: rest =>
    let next := x.digits * 10 + digitValue c
    if next < Nat.pow 2 64 then Scaled.whole ⟨next, x.exponent⟩ rest
    else ⟨x.digits, x.exponent + (rest.length + 1)⟩

/-- A digit after the point that no longer fits ends the reading. -/
def Scaled.fraction (x : Scaled) : List Char → Scaled
  | [] => x
  | c :: rest =>
    let next := x.digits * 10 + digitValue c
    if next < Nat.pow 2 64 then Scaled.fraction ⟨next, x.exponent - 1⟩ rest else x

def scaleUp (x : Binary64) (power : Nat) : Binary64 :=
  let p := Binary64.ofNat (Nat.pow 10 power)
  Binary64.ofRatio x.isNegative (x.significand * p.significand * Nat.pow 2 (x.scale + p.scale).toNat)
    (Nat.pow 2 (-(x.scale + p.scale)).toNat)

def scaleDown (x : Binary64) (power : Nat) : Binary64 :=
  let p := Binary64.ofNat (Nat.pow 10 power)
  Binary64.ofRatio x.isNegative (x.significand * Nat.pow 2 (x.scale - p.scale).toNat)
    (p.significand * Nat.pow 2 (-(x.scale - p.scale)).toNat)

/-- Steps of `10 ^ -308` until the rest of the exponent is a power of ten with a double. -/
def scaleDownSteps : Nat → Binary64 → Nat → Binary64
  | 0, x, _ => x
  | steps + 1, x, power =>
    if power ≤ 308 then scaleDown x power
    else if x.isZero then x
    else scaleDownSteps steps (scaleDown x 308) (power - 308)

/-- Refused when the result would be infinite. -/
def Scaled.toBinary64? (negative : Bool) (x : Scaled) : Option Binary64 :=
  let start := Binary64.ofNat x.digits
  let size := x.exponent.natAbs
  let result :=
    if x.exponent < 0 then some (scaleDownSteps 5 start size)
    else if size ≤ 308 then some (scaleUp start size)
    else if x.digits = 0 then some start
    else none
  match result with
  | none => none
  | some r => if r.isInfinite then none else some (Binary64.pack negative r.exponentField r.fraction)

end BoundTree.Json
