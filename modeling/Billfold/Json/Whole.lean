import Billfold.Fault
import Billfold.Json.Basic
import Billfold.Text.Blank
import Billfold.Text.Digit

/-!
# Whole numbers in values

* `wholeOfText?`   the whole number that a text writes: digits of any script, single underscores
                   between them, a sign and white space around
* `Json.whole`     a value as a whole number; fractions are dropped
-/

namespace Billfold

/-- whole numbers may have this many digits in text -/
def maxWholeDigits : Nat := 4300

/-- digits without the single underscores between them -/
def joinDigits? : List Char → Option (List Char)
  | [] => none
  | [c] => if c = '_' then none else some [c]
  | c :: '_' :: rest => if c = '_' then none else (joinDigits? rest).map (c :: ·)
  | c :: rest => if c = '_' then none else (joinDigits? rest).map (c :: ·)

/-- the number that digits of any script write, the first digit first -/
def digitsValue? (digits : List Char) : Option Nat :=
  digits.foldlM (fun n c => (Text.digitValue? c).map (10 * n + ·)) 0

/-- the number that digits with underscores between them write -/
def unsignedOf? (cs : List Char) : Option Nat := do
  let digits ← joinDigits? cs
  if maxWholeDigits < digits.length then none else digitsValue? digits

def wholeOfText? (s : List Char) : Option Int :=
  match Text.trim Text.isWhite s with
  | '-' :: rest => (unsignedOf? rest).map fun n => -(n : Int)
  | '+' :: rest => (unsignedOf? rest).map fun n => (n : Int)
  | rest => (unsignedOf? rest).map fun n => (n : Int)

example : wholeOfText? " 1_2 ".toList = some 12 := by decide
example : wholeOfText? "1__2".toList = none := by decide
example : wholeOfText? "_1".toList = none ∧ wholeOfText? "1_".toList = none := by decide

namespace Json

def whole : Json → Except Fault Int
  | null => .error .badKind
  | bool b => .ok (if b then 1 else 0)
  | int n => .ok n
  | float x =>
    match x.truncate? with
    | some n => .ok n
    | none => .error (if x.isNaN then .badValue else .outOfRange)
  | text s =>
    match wholeOfText? s.toList with
    | some n => .ok n
    | none => .error .badValue
  | unpaired => .error .badValue
  | list _ => .error .badKind
  | object _ => .error .badKind

end Json

end Billfold
