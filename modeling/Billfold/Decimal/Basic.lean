import Billfold.Fault
import Billfold.Number.Digits

/-!
# Decimal numbers

A decimal keeps its sign, its digits and its exponent apart, so `5` and `5.00` are different
decimals of one value, and zero has a sign.

* `Decimal`              a finite decimal, an infinity, or no number (quiet or signaling)
* `Decimal.isNegative`   below zero; neither zero is
* `Decimal.truncate`     the whole part
* `Decimal.sameValue`    whether two decimals are the same number
-/

namespace Billfold

-- powers of natural numbers are those of the core library, whatever is imported beside this module
attribute [local instance (2000)] instPowNat

inductive Decimal where
  /-- `± coefficient * 10 ^ exponent` -/
  | finite (negative : Bool) (coefficient : Nat) (exponent : Int)
  | infinite (negative : Bool)
  /-- no number, with the digits that may explain why -/
  | nan (signaling negative : Bool) (payload : Nat)
deriving DecidableEq, Repr

namespace Decimal

def zero : Decimal := finite false 0 0

def ofNat (n : Nat) : Decimal := finite false n 0

def isFinite : Decimal → Bool
  | finite .. => true
  | _ => false

def isNaN : Decimal → Bool
  | nan .. => true
  | _ => false

/-- the order against zero; only numbers have one -/
def isNegative : Decimal → Except Fault Bool
  | finite negative coefficient _ => .ok (negative && coefficient != 0)
  | infinite negative => .ok negative
  | nan .. => .error .decimalInvalid

/-- a coefficient times a power of ten, without the digits after the point -/
def wholePart (coefficient : Nat) (exponent : Int) : Nat :=
  if 0 ≤ exponent then coefficient * 10 ^ exponent.toNat
  else if digitCount coefficient ≤ (-exponent).toNat then 0
  else coefficient / 10 ^ (-exponent).toNat

/-- the whole part, the digits after the point dropped -/
def truncate : Decimal → Except Fault Int
  | finite negative coefficient exponent =>
    let whole : Int := wholePart coefficient exponent
    .ok (if negative then -whole else whole)
  | infinite _ => .error .outOfRange
  | nan .. => .error .badValue

/-- whether `m * 10 ^ e` and `n * 10 ^ f` are the same number -/
def sameMagnitude (m : Nat) (e : Int) (n : Nat) (f : Int) : Bool :=
  if m = 0 ∨ n = 0 then m == n
  else if e + digitCount m = f + digitCount n then
    m * 10 ^ (e - f).toNat == n * 10 ^ (f - e).toNat
  else
    false

def sameValue : Decimal → Decimal → Bool
  | finite a m e, finite b n f => sameMagnitude m e n f && (a == b || m == 0)
  | infinite a, infinite b => a == b
  | _, _ => false

end Decimal

end Billfold
