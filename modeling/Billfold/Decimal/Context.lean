import Billfold.Decimal.Basic
import Billfold.Number.Rounding

/-!
# Decimal arithmetic

Results are exact where they fit the working precision; else they are rounded to it, a half to
the even neighbour.  A result above the largest exponent is an error, one below the smallest loses
digits down to zero.

* `Context`            a precision and a range of exponents
* `Decimal.fit`        a finite result brought into the working context
* `neg`, `abs`, `mul`, `add`, `sum`   arithmetic
* `Decimal.toCents`    the decimal rounded to two places, exponent `-2`
-/

namespace Billfold

-- powers of natural numbers are those of the core library, whatever is imported beside this module
attribute [local instance (2000)] instPowNat

/-- how many digits results have, and how large and small they get -/
structure Context where
  digits : Nat
  maxExponent : Int
  minExponent : Int

namespace Context

/-- 28 digits, exponents to a million -/
def working : Context := ⟨28, 999999, -999999⟩

/-- the exponent of the last digit of the smallest numbers -/
def tiny (c : Context) : Int := c.minExponent - (c.digits - 1)

end Context

namespace Decimal

/-- the coefficient without its last `places` digits, rounded; a number that is far below half a
unit is zero -/
def dropDigits (coefficient places : Nat) : Nat :=
  if digitCount coefficient < places then 0 else roundHalfEven coefficient (10 ^ places)

def fitIn (c : Context) (negative : Bool) (coefficient : Nat) (exponent : Int) :
    Except Fault Decimal :=
  if coefficient = 0 then
    .ok (finite negative 0 (max c.tiny (min exponent c.maxExponent)))
  else
    let count := digitCount coefficient
    let top := exponent + count - 1
    if c.maxExponent < top then .error .decimalOverflow
    else
      let last := max (exponent + (count - c.digits : Nat))
        (if top < c.minExponent then c.tiny else exponent)
      let rounded := dropDigits coefficient (last - exponent).toNat
      if rounded = 10 ^ c.digits then
        if c.maxExponent < last + c.digits then .error .decimalOverflow
        else .ok (finite negative (10 ^ (c.digits - 1)) (last + 1))
      else
        .ok (finite negative rounded last)

def fit (negative : Bool) (coefficient : Nat) (exponent : Int) : Except Fault Decimal :=
  fitIn .working negative coefficient exponent

/-- what an operation makes of an operand that is no number -/
def propagate (signaling negative : Bool) (payload : Nat) : Except Fault Decimal :=
  if signaling then .error .decimalInvalid else .ok (nan false negative payload)

/-! ## one operand -/

/-- the number with the opposite sign; zero gets none -/
def neg : Decimal → Except Fault Decimal
  | finite negative coefficient exponent =>
    fit (!negative && coefficient != 0) coefficient exponent
  | infinite negative => .ok (infinite !negative)
  | nan signaling negative payload => propagate signaling negative payload

/-- the magnitude -/
def abs : Decimal → Except Fault Decimal
  | finite _ coefficient exponent => fit false coefficient exponent
  | infinite _ => .ok (infinite false)
  | nan signaling negative payload => propagate signaling negative payload

/-! ## two operands -/

def mul : Decimal → Decimal → Except Fault Decimal
  | nan s n p, _ => propagate s n p
  | _, nan s n p => propagate s n p
  | infinite a, infinite b => .ok (infinite (a != b))
  | infinite a, finite b n _ => if n = 0 then .error .decimalInvalid else .ok (infinite (a != b))
  | finite a m _, infinite b => if m = 0 then .error .decimalInvalid else .ok (infinite (a != b))
  | finite a m e, finite b n f => fit (a != b) (m * n) (e + f)

/-- the sum of two signed coefficients of one exponent -/
def addAligned (a : Bool) (m : Nat) (b : Bool) (n : Nat) (exponent : Int) : Except Fault Decimal :=
  if a = b then fit a (m + n) exponent
  else if n < m then fit a (m - n) exponent
  else if m < n then fit b (n - m) exponent
  else fit false 0 exponent

/-- the sum of `± m * 10 ^ e` and `± n * 10 ^ f` where `f ≤ e`.  A summand too small to be seen in
the result is replaced by one unit at a place just as invisible, so exponents far apart cost no
digits. -/
def addFinite (a : Bool) (m : Nat) (e : Int) (b : Bool) (n : Nat) (f : Int) :
    Except Fault Decimal :=
  let digits := Context.working.digits
  if m = 0 then
    if n = 0 then fit (a && b) 0 f else fit b n f
  else if n = 0 then
    let places := min (e - f).toNat (digits - digitCount m)
    fit a (m * 10 ^ places) (e - places)
  else
    let unseen := e + min (-1) ((digitCount m : Int) - digits - 2)
    if f + digitCount n - 1 < unseen then
      addAligned a (m * 10 ^ (e - unseen).toNat) b 1 unseen
    else
      addAligned a (m * 10 ^ (e - f).toNat) b n f

def add : Decimal → Decimal → Except Fault Decimal
  | nan s n p, _ => propagate s n p
  | _, nan s n p => propagate s n p
  | infinite a, infinite b => if a = b then .ok (infinite a) else .error .decimalInvalid
  | infinite a, _ => .ok (infinite a)
  | _, infinite b => .ok (infinite b)
  | finite a m e, finite b n f => if f ≤ e then addFinite a m e b n f else addFinite b n f a m e

/-- the sum from left to right, from zero -/
def sum (xs : List Decimal) : Except Fault Decimal := xs.foldlM add zero

/-! ## cents -/

/-- the decimal rounded to two places; it must fit the working precision -/
def toCents : Decimal → Except Fault Decimal
  | finite negative coefficient exponent =>
    if coefficient = 0 then .ok (finite negative 0 (-2))
    else if Context.working.digits < exponent + digitCount coefficient + 2 then
      .error .decimalInvalid
    else
      let cents :=
        if -2 ≤ exponent then coefficient * 10 ^ (exponent + 2).toNat
        else dropDigits coefficient (-2 - exponent).toNat
      if Context.working.digits < digitCount cents then .error .decimalInvalid
      else .ok (finite negative cents (-2))
  | infinite _ => .error .decimalInvalid
  | nan signaling negative payload => propagate signaling negative payload

end Decimal

end Billfold
