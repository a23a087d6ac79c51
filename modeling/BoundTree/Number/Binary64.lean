/-!
Doubles by their 64 bits: what a pattern stands for, when two are equal as numbers, and the nearest
double to a ratio. Everything is exact arithmetic on naturals.
-/
namespace BoundTree

structure Binary64 where
  bits : UInt64
  deriving DecidableEq, Repr

namespace Binary64

def isNegative (x : Binary64) : Bool := x.bits.toNat / Nat.pow 2 63 == 1

def exponentField (x : Binary64) : Nat := x.bits.toNat / Nat.pow 2 52 % Nat.pow 2 11

def fraction (x : Binary64) : Nat := x.bits.toNat % Nat.pow 2 52

def isNaN (x : Binary64) : Bool := x.exponentField == 2047 && x.fraction != 0

def isInfinite (x : Binary64) : Bool := x.exponentField == 2047 && x.fraction == 0

def isZero (x : Binary64) : Bool := x.exponentField == 0 && x.fraction == 0

/-- The absolute value of a finite double is `significand * 2 ^ scale`. -/
def significand (x : Binary64) : Nat :=
  if x.exponentField = 0 then x.fraction else Nat.pow 2 52 + x.fraction

def scale (x : Binary64) : Int :=
  if x.exponentField = 0 then -1074 else x.exponentField - 1075

/-- Equality as numbers: not-a-number differs from itself, the two zeros are equal. -/
def numEq (x y : Binary64) : Bool :=
  !x.isNaN && !y.isNaN && (x.bits == y.bits || x.isZero && y.isZero)

def pack (negative : Bool) (exponentField fraction : Nat) : Binary64 :=
  ⟨UInt64.ofNat ((if negative then Nat.pow 2 63 else 0) + exponentField * Nat.pow 2 52 + fraction)⟩

def infinity (negative : Bool) : Binary64 := pack negative 2047 0

def zero (negative : Bool) : Binary64 := pack negative 0 0

/-- The quotient to the nearest natural, a half to the even one. -/
def roundDiv (num den : Nat) : Nat :=
  let q := num / den
  let r := num % den
  if 2 * r < den then q
  else if den < 2 * r then q + 1
  else if q % 2 = 0 then q else q + 1

/-- `num / den` in units of `2 ^ scale`, as a ratio of naturals. -/
def rescale (num den : Nat) (scale : Int) : Nat × Nat :=
  if 0 ≤ scale then (num, den * Nat.pow 2 scale.toNat) else (num * Nat.pow 2 (-scale).toNat, den)

/-- The scale at which the ratio has 53 binary digits, but never below that of the least double. -/
def ratioScale (num den : Nat) : Int :=
  let guess : Int := num.log2 - den.log2 - 52
  let (n, d) := rescale num den guess
  let fitted := if n / d < Nat.pow 2 52 then guess - 1 else guess
  max fitted (-1074)

/-- The double nearest to `num / den`, a half to the even one; infinite beyond the range. -/
def ofRatio (negative : Bool) (num den : Nat) : Binary64 :=
  if num = 0 then zero negative
  else
    let s := ratioScale num den
    let (n, d) := rescale num den s
    let m := roundDiv n d
    let (m, s) := if m = Nat.pow 2 53 then (Nat.pow 2 52, s + 1) else (m, s)
    if m < Nat.pow 2 52 then pack negative 0 m
    else if s + 1075 ≤ 2046 then pack negative (s + 1075).toNat (m - Nat.pow 2 52)
    else infinity negative

def ofNat (n : Nat) : Binary64 := ofRatio false n 1

def ofInt (n : Int) : Binary64 := ofRatio (n < 0) n.natAbs 1

end Binary64
end BoundTree
