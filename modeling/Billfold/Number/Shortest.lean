import Billfold.Number.Binary64

/-!
# Shortest decimal digits

The fewest decimal digits that read back as a given binary number, and of those the nearest to it.

* `Reach`             the decimals that read back as the number, as an interval
* `shortestDigits`    the digits and the power of ten of the last one
* `FloatFormat`       how the digits are laid out
* `Binary64.text`     the number in text
-/

namespace Billfold

-- powers of natural numbers are those of the core library, whatever is imported beside this module
attribute [local instance (2000)] instPowNat

/-! ## which digits -/

/-- what rounds to a number: the interval around `num / den` whose ends are `below` and `above`
quarters of the last binary place away, the ends included if the significand is even -/
structure Reach where
  /-- numerator and denominator of a quarter of the last place -/
  quarter : Nat × Nat
  /-- the number, counted in quarters -/
  centre : Nat
  below : Nat
  above : Nat
  closed : Bool

namespace Reach

/-- the interval of the finite number `significand * 2 ^ exponent` -/
def of (significand : Nat) (exponent : Int) : Reach where
  quarter := Binary64.ratio 1 (exponent - 2)
  centre := 4 * significand
  below := if significand = Binary64.leastFull ∧ Binary64.minExponent < exponent then 1 else 2
  above := 2
  closed := significand % 2 = 0

/-- whether `units / scale` lies in the interval -/
def holds (r : Reach) (units scale : Nat) : Bool :=
  let point := units * r.quarter.2
  let low := (r.centre - r.below) * r.quarter.1 * scale
  let high := (r.centre + r.above) * r.quarter.1 * scale
  if r.closed then low ≤ point && point ≤ high else low < point && point < high

end Reach

def tenPower (n : Int) : Nat × Nat := if 0 ≤ n then (10 ^ n.toNat, 1) else (1, 10 ^ (-n).toNat)

def decimalExponent (num den : Nat) : Int :=
  let guess : Int := digitCount num - digitCount den
  let power := tenPower guess
  if power.1 * den ≤ num * power.2 then guess else guess - 1

/-- the points of the grid of `10 ^ place` beside the number that lie in its interval: the nearer
one, of two equally near ones the even one -/
def gridPoint? (r : Reach) (place : Int) : Option Nat :=
  let (p, q) := tenPower place
  let num := r.centre * r.quarter.1 * q
  let den := r.quarter.2 * p
  let lower := num / den
  let lowerHolds := r.holds (lower * p) q
  let upperHolds := r.holds ((lower + 1) * p) q
  if lowerHolds && upperHolds then some (roundHalfEven num den)
  else if lowerHolds then some lower
  else if upperHolds then some (lower + 1)
  else none

/-- tries one digit more each time, at most `steps` times -/
def shortestFrom (r : Reach) (top : Int) : Nat → Nat → Nat × Int
  | 0, count =>
    let place := top - count + 1
    let (p, q) := tenPower place
    (roundHalfEven (r.centre * r.quarter.1 * q) (r.quarter.2 * p), place)
  | steps + 1, count =>
    match gridPoint? r (top - count + 1) with
    | some digits => (digits, top - count + 1)
    | none => shortestFrom r top steps (count + 1)

/-- the digits without zeros at the end; `steps` bounds how many are dropped -/
def dropZeros : Nat → Nat → Int → Nat × Int
  | 0, digits, place => (digits, place)
  | steps + 1, digits, place =>
    if digits % 10 = 0 then dropZeros steps (digits / 10) (place + 1) else (digits, place)

/-- the fewest digits that read back as `significand * 2 ^ exponent`, which is not zero, and the
power of ten of the last of them -/
def shortestDigits (significand : Nat) (exponent : Int) : Nat × Int :=
  let r := Reach.of significand exponent
  let top := decimalExponent (r.centre * r.quarter.1) r.quarter.2
  let shortest := shortestFrom r top 17 1
  dropZeros 17 shortest.1 shortest.2

/-! ## how they are laid out -/

/-- the layout of a floating-point number in text -/
structure FloatFormat where
  /-- numbers from `10 ^ plainFrom` on, and below `10 ^ plainBelow`, have no exponent -/
  plainFrom : Int
  plainBelow : Int
  /-- the least number of digits of an exponent, which always has a sign -/
  exponentDigits : Nat
  infinity : String
  nan : String

/-- digits with the point behind the first `point` of them, zeros filled in; whole numbers end
in `.0` -/
def plainDigits (digits : List Char) (point : Int) : List Char :=
  if point ≤ 0 then
    '0' :: '.' :: List.replicate (-point).toNat '0' ++ digits
  else
    let n := point.toNat
    if digits.length ≤ n then
      digits ++ List.replicate (n - digits.length) '0' ++ ['.', '0']
    else
      digits.take n ++ '.' :: digits.drop n

def scientificDigits (format : FloatFormat) (digits : List Char) (power : Int) : List Char :=
  let mantissa := match digits with
    | [] => []
    | [d] => [d]
    | d :: rest => d :: '.' :: rest
  mantissa ++ 'e' :: (if power < 0 then '-' else '+') ::
    padded 10 format.exponentDigits power.natAbs

namespace Binary64

def text (format : FloatFormat) : Binary64 → String
  | nan => format.nan
  | infinite negative => (if negative then "-" else "") ++ format.infinity
  | finite negative significand exponent =>
    let magnitude :=
      if significand = 0 then plainDigits ['0'] 1
      else
        let shortest := shortestDigits significand exponent
        let digits := numeral shortest.1
        let point := digits.length + shortest.2
        if format.plainFrom < point ∧ point ≤ format.plainBelow then plainDigits digits point
        else scientificDigits format digits (point - 1)
    String.ofList (if negative then '-' :: magnitude else magnitude)

end Binary64

end Billfold
