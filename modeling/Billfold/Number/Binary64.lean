import Billfold.Number.Digits
import Billfold.Number.Rounding

/-!
# Binary floating-point numbers

The 64-bit binary numbers of IEEE 754, by significand and exponent, and exact rounding to them.

* `Binary64`             a number `± significand * 2 ^ exponent`, an infinity, or no number
* `Binary64.ofRatio`     the number nearest to a quotient, ties to the even significand
* `Binary64.ofDecimal`   the number nearest to `± coefficient * 10 ^ exponent`
* `Binary64.ratio`       a finite magnitude as a quotient of natural numbers
* `Binary64.truncate?`   the whole part
* `Binary64.compare`     the order of the numbers
-/

namespace Billfold

-- powers of natural numbers are those of the core library, whatever is imported beside this module
attribute [local instance (2000)] instPowNat

/-- a 64-bit binary floating-point number -/
inductive Binary64 where
  | finite (negative : Bool) (significand : Nat) (exponent : Int)
  | infinite (negative : Bool)
  | nan
deriving DecidableEq, Repr

namespace Binary64

/-- the least significand of 53 binary digits; no significand has more -/
def leastFull : Nat := 4503599627370496

def minExponent : Int := -1074

/-- the exponent of the largest numbers, whose significands have all 53 digits -/
def maxExponent : Int := 971

def zero (negative : Bool) : Binary64 := finite negative 0 minExponent

/-! ## rounding to the nearest number -/

/-- `num / den` divided by a power of two, as a quotient -/
def scaled (num den : Nat) (exponent : Int) : Nat × Nat :=
  if 0 ≤ exponent then (num, den * 2 ^ exponent.toNat) else (num * 2 ^ (-exponent).toNat, den)

/-- the exponent that gives `num / den` a significand of 53 digits, or the smallest exponent -/
def exponentFor (num den : Nat) : Int :=
  let guess : Int := Nat.log2 num - Nat.log2 den - 52
  let (n, d) := scaled num den guess
  max minExponent (if n < leastFull * d then guess - 1 else guess)

/-- the number nearest to `± num / den` -/
def ofRatio (negative : Bool) (num den : Nat) : Binary64 :=
  if num = 0 then zero negative
  else
    let exponent := exponentFor num den
    let (n, d) := scaled num den exponent
    let significand := roundHalfEven n d
    let (significand, exponent) :=
      if significand = 2 * leastFull then (leastFull, exponent + 1) else (significand, exponent)
    if maxExponent < exponent then infinite negative else finite negative significand exponent

/-- the number nearest to `± coefficient * 10 ^ exponent`; far outside the range no power of ten
is computed -/
def ofDecimal (negative : Bool) (coefficient : Nat) (exponent : Int) : Binary64 :=
  if coefficient = 0 then zero negative
  else
    let top := exponent + digitCount coefficient
    if 310 < top then infinite negative
    else if top < -330 then zero negative
    else if 0 ≤ exponent then ofRatio negative (coefficient * 10 ^ exponent.toNat) 1
    else ofRatio negative coefficient (10 ^ (-exponent).toNat)

/-! ## views -/

/-- `significand * 2 ^ exponent` as a quotient -/
def ratio (significand : Nat) (exponent : Int) : Nat × Nat :=
  if 0 ≤ exponent then (significand * 2 ^ exponent.toNat, 1)
  else (significand, 2 ^ (-exponent).toNat)

/-- the whole part, the fraction dropped -/
def truncate? : Binary64 → Option Int
  | finite negative significand exponent =>
    let (n, d) := ratio significand exponent
    some (if negative then -(n / d : Nat) else (n / d : Nat))
  | _ => none

def isNaN : Binary64 → Bool
  | nan => true
  | _ => false

def isZero : Binary64 → Bool
  | finite _ significand _ => significand == 0
  | _ => false

def isWhole : Binary64 → Bool
  | finite _ significand exponent => let (n, d) := ratio significand exponent; n % d == 0
  | _ => false

/-- a finite number as a signed numerator over a positive denominator -/
def signedRatio? : Binary64 → Option (Int × Nat)
  | finite negative significand exponent =>
    let (n, d) := ratio significand exponent
    some (if negative then -n else n, d)
  | _ => none

/-- the order of two numbers; none if one is no number -/
def compare : Binary64 → Binary64 → Option Ordering
  | nan, _ => none
  | _, nan => none
  | infinite a, infinite b => some (if a = b then .eq else if a then .lt else .gt)
  | infinite a, _ => some (if a then .lt else .gt)
  | _, infinite b => some (if b then .gt else .lt)
  | finite s m e, finite t n f =>
    let (a, b) := ratio m e
    let (c, d) := ratio n f
    let a : Int := if s then -a else a
    let c : Int := if t then -c else c
    some (Ord.compare (a * d) (c * b))

def ofInt (n : Int) : Binary64 := ofRatio (n < 0) n.natAbs 1

end Binary64

end Billfold
