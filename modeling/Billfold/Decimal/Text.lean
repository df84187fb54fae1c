import Billfold.Decimal.Basic
import Billfold.Text.Blank
import Billfold.Text.Digit

/-!
# Decimals in text

The text of a decimal shows its exponent: digits with a point where the exponent is not above zero
and the number not far below one, else one digit before the point and a power of ten.

* `Decimal.print`, `Decimal.text`     the text of a decimal
* `Decimal.read?`, `Decimal.ofText?`  reading: blanks around are dropped, underscores ignored,
                                      digits of any script and letters of either case accepted
-/

namespace Billfold.Decimal

/-! ## writing -/

def signedNumeral (n : Int) : List Char :=
  (if n < 0 then '-' else '+') :: numeral n.natAbs

/-- digits with the point behind the first `point` of them -/
def pointed (digits : List Char) (point : Int) : List Char :=
  if point ≤ 0 then '0' :: '.' :: List.replicate (-point).toNat '0' ++ digits
  else if digits.length ≤ point.toNat then digits
  else digits.take point.toNat ++ '.' :: digits.drop point.toNat

def printFinite (coefficient : Nat) (exponent : Int) : List Char :=
  let digits := numeral coefficient
  let point := exponent + digits.length
  if exponent ≤ 0 ∧ -6 < point then pointed digits point
  else pointed digits 1 ++ 'E' :: signedNumeral (point - 1)

def printMagnitude : Decimal → List Char
  | finite _ coefficient exponent => printFinite coefficient exponent
  | infinite _ => "Infinity".toList
  | nan signaling _ payload =>
    (if signaling then "sNaN" else "NaN").toList ++ (if payload = 0 then [] else numeral payload)

def hasSign : Decimal → Bool
  | finite negative _ _ => negative
  | infinite negative => negative
  | nan _ negative _ => negative

def print (x : Decimal) : List Char :=
  if x.hasSign then '-' :: x.printMagnitude else x.printMagnitude

def text (x : Decimal) : String := String.ofList x.print

/-! ## reading -/

/-- a character of a number's text in ASCII; only digits of other scripts have one -/
def ascii? (c : Char) : Option Char :=
  if c.toNat < 128 ∧ c.toNat ≠ 0 then some c
  else (Text.digitValue? c).map fun value => Char.ofNat (48 + value)

/-- the text without blanks around it and without underscores, in ASCII -/
def plain? (s : List Char) : Option (List Char) :=
  ((Text.trim Text.isBlank s).filter (· != '_')).mapM ascii?

def splitSign : List Char → Bool × List Char
  | '-' :: rest => (true, rest)
  | '+' :: rest => (false, rest)
  | rest => (false, rest)

def exponent? : List Char → Option Int
  | [] => some 0
  | e :: rest =>
    if e = 'e' ∨ e = 'E' then
      let (negative, digits) := splitSign rest
      if digits.isEmpty || !digits.all Char.isDigit then none
      else some (if negative then -(ofNumeral digits : Int) else ofNumeral digits)
    else none

def maxTextExponent : Int := 999999999999999999

/-- the smallest exponent of a last digit in text -/
def minTextExponent : Int := -1999999999999999997

/-- whether a decimal's exponents can be written; only such decimals are read -/
def inTextRange (coefficient : Nat) (exponent : Int) : Bool :=
  minTextExponent ≤ exponent &&
    exponent + (if coefficient = 0 then 0 else digitCount coefficient - 1) ≤ maxTextExponent

/-- digits, perhaps with a point and an exponent -/
def readFinite? (negative : Bool) (s : List Char) : Option Decimal :=
  let whole := s.takeWhile Char.isDigit
  let rest := s.dropWhile Char.isDigit
  let (fraction, rest) := match rest with
    | '.' :: rest => (rest.takeWhile Char.isDigit, rest.dropWhile Char.isDigit)
    | rest => ([], rest)
  if whole.isEmpty && fraction.isEmpty then none
  else do
    let coefficient := ofNumeral (whole ++ fraction)
    let exponent := (← exponent? rest) - fraction.length
    if inTextRange coefficient exponent then some (finite negative coefficient exponent) else none

def readPayload? (signaling negative : Bool) (digits : List Char) : Option Decimal :=
  if digits.all Char.isDigit then some (nan signaling negative (ofNumeral digits)) else none

/-- a number, an infinity or no number, the sign already read -/
def readUnsigned? (negative : Bool) (s : List Char) : Option Decimal :=
  match s.map Char.toLower with
  | ['i', 'n', 'f'] => some (infinite negative)
  | ['i', 'n', 'f', 'i', 'n', 'i', 't', 'y'] => some (infinite negative)
  | 'n' :: 'a' :: 'n' :: digits => readPayload? false negative digits
  | 's' :: 'n' :: 'a' :: 'n' :: digits => readPayload? true negative digits
  | _ => readFinite? negative s

/-- the decimal that a text writes -/
def read? (s : List Char) : Option Decimal := do
  let (negative, rest) := splitSign (← plain? s)
  readUnsigned? negative rest

def ofText? (s : String) : Option Decimal := read? s.toList

end Billfold.Decimal
