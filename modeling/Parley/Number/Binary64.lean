/-! Double-precision numbers, by their bits.

A finite number is a significand times a power of two; both are read off the sixty-four bits with
natural-number arithmetic alone. `ofRatio` rounds a ratio of naturals to the nearest number, a tie to
the even significand, and `ofDecimal` does so for digits and a power of ten. -/
namespace Parley

/-- A double-precision number. -/
structure Binary64 where
  bits : BitVec 64
  deriving DecidableEq, Repr

namespace Binary64

/-- Whether the sign bit is set. -/
def negative (x : Binary64) : Bool := x.bits.msb

/-- The biased exponent. -/
def exponent (x : Binary64) : Nat := x.bits.toNat / Nat.pow 2 52 % Nat.pow 2 11

/-- The stored fraction. -/
def fraction (x : Binary64) : Nat := x.bits.toNat % Nat.pow 2 52

def isFinite (x : Binary64) : Bool := x.exponent != 2047

def isNaN (x : Binary64) : Bool := x.exponent == 2047 && x.fraction != 0

/-- The significand of a finite number. -/
def significand (x : Binary64) : Nat := if x.exponent = 0 then x.fraction else Nat.pow 2 52 + x.fraction

/-- The power of two that a finite number's significand counts. -/
def unit (x : Binary64) : Int := if x.exponent = 0 then -1074 else x.exponent - 1075

/-- Whether the number is a zero of either sign. -/
def isZero (x : Binary64) : Bool := x.exponent == 0 && x.fraction == 0

/-- The integer that a finite number is, if it is one. -/
def toInt? (x : Binary64) : Option Int :=
  if x.isFinite then
    let scale := Nat.pow 2 x.unit.natAbs
    let magnitude? : Option Nat :=
      if 0 ≤ x.unit then some (x.significand * scale)
      else if x.significand % scale = 0 then some (x.significand / scale)
      else none
    magnitude?.map fun n => if x.negative then -(n : Int) else n
  else none

/-- The number with a sign and the bits of its magnitude. -/
def ofMagnitude (negative : Bool) (magnitude : Nat) : Binary64 :=
  ⟨BitVec.ofBool negative ++ BitVec.ofNat 63 magnitude⟩

def zero (negative : Bool) : Binary64 := ofMagnitude negative 0

def infinity (negative : Bool) : Binary64 := ofMagnitude negative (2047 * Nat.pow 2 52)

def nan : Binary64 := ofMagnitude false (2047 * Nat.pow 2 52 + Nat.pow 2 51)

/-- The quotient rounded to the nearest integer, a tie to the even one. -/
def nearestQuotient (num den : Nat) : Nat :=
  let q := num / den
  let r := num % den
  if 2 * r < den then q else if den < 2 * r then q + 1 else q + q % 2

/-- The power of two that the significand of a positive ratio counts. -/
def unitOfRatio (num den : Nat) : Int :=
  let guess : Int := num.log2 - den.log2 - 53
  let unit :=
    if den * Nat.pow 2 (guess + 53).toNat ≤ num * Nat.pow 2 (-(guess + 53)).toNat then guess + 1 else guess
  max unit (-1074)

/-- The number nearest to a ratio of naturals, a tie to the even significand; past the greatest
finite number, infinity. -/
def ofRatio (negative : Bool) (num den : Nat) : Binary64 :=
  if num = 0 then zero negative
  else
    let unit := unitOfRatio num den
    let significand := nearestQuotient (num * Nat.pow 2 (-unit).toNat) (den * Nat.pow 2 unit.toNat)
    -- a significand that reaches the next power of two carries into the exponent by itself
    let magnitude := (unit + 1074).toNat * Nat.pow 2 52 + significand
    if 2047 * Nat.pow 2 52 ≤ magnitude then infinity negative else ofMagnitude negative magnitude

/-- The number nearest to `digits · 10 ^ exponent`. Exponents that leave no doubt are settled without
the power. -/
def ofDecimal (negative : Bool) (digits : Nat) (exponent : Int) : Binary64 :=
  if digits = 0 then zero negative
  else
    let length : Int := digits.log2 / 3 + 1
    if 1000 < exponent then infinity negative
    else if length + exponent < -1000 then zero negative
    else ofRatio negative (digits * Nat.pow 10 exponent.toNat) (Nat.pow 10 (-exponent).toNat)

end Binary64

end Parley
