import Billfold.Calendar.Instant
import Billfold.Json.Whole

/-!
# Whole numbers in forms

Forms and settings write whole numbers as text more freely than the ledger's own values: a plus
sign and a fraction of zeros are dropped, but only ASCII digits count.

* `NumberFault`      why a text is no whole number
* `lenientWhole`     the whole number that a text writes
-/

namespace Billfold

inductive NumberFault where
  | tooLong
  | malformed
deriving DecidableEq, Repr

/-- the text without a plus sign, which no minus sign may follow -/
def dropPlus : List Char → List Char
  | '+' :: '-' :: rest => '+' :: '-' :: rest
  | '+' :: rest => rest
  | cs => cs

/-- the text without a fraction of zeros -/
def dropZeroFraction (cs : List Char) : List Char :=
  let fraction := cs.dropWhile (· != '.')
  if (fraction.drop 1).all (· == '0') then cs.takeWhile (· != '.') else cs

/-- the number that ASCII digits with single underscores between them write -/
def plainWhole? (cs : List Char) : Option Nat := do
  Date.digits? (← joinDigits? cs)

/-- the number behind a minus sign, which no needless zero may follow -/
def negativeWhole? (cs : List Char) : Option Int := do
  let n ← plainWhole? cs
  if cs.head? = some '0' ∧ cs ≠ ['0'] then none else some (-(n : Int))

def lenientWhole (s : List Char) : Except NumberFault Int :=
  let cs := Text.trim Text.isWhite s
  if maxWholeDigits < cs.length then .error .tooLong
  else
    let number := match dropZeroFraction (dropPlus cs) with
      | '-' :: digits => negativeWhole? digits
      | digits => (plainWhole? digits).map fun n => (n : Int)
    match number with
    | some n => .ok n
    | none => .error .malformed

end Billfold
