import Billfold.Calendar.Instant
import Billfold.Http.Field

/-!
# Dates in forms

A date may be written as a day, as a point in time at midnight, or as the seconds since 1970; a
number too large for that counts milliseconds.

* `dateOfMicros`   the day that begins at a point in time
* `dateOfText`     the day that a text writes
* `readDate`       a date field
-/

namespace Billfold.Http

/-! ## counts of seconds -/

/-- counts above this are milliseconds -/
def secondsBound : Nat := 20000000000

def isMillis (count : Int) : Bool := secondsBound < count.natAbs

def microsPerDay : Int := 86400000000

/-- the number of 1 January 1970 -/
def epochNumber : Int := 719163

/-- the number of 1 January 1600, before which no day is counted in seconds -/
def firstCounted : Int := 584023

/-- the day with this point in time, in microseconds since 1970 -/
def dayOfMicros? (t : Int) : Option Date :=
  let n := epochNumber + t / microsPerDay
  if firstCounted ≤ n then Date.ofNumber? n else none

/-- the day that begins at this point in time, in microseconds since 1970 -/
def dateOfMicros (t : Int) : Except Problem Date :=
  match dayOfMicros? t with
  | none => .error .unreadableDate
  | some d => if t % microsPerDay = 0 then .ok d else .error .notMidnight

def microsOf (count micros : Int) : Int :=
  count * (if isMillis count then 1000 else 1000000) + micros

/-- millionths of a quotient, to the nearest one, and of two equally near ones the greater -/
def millionths (num den : Nat) : Nat := (2 * 1000000 * num + den) / (2 * den)

/-- the day that a whole number of seconds or milliseconds begins -/
def dateOfWhole (n : Int) : Except Problem Date := dateOfMicros (microsOf n 0)

/-- the day that a number of seconds or milliseconds begins; a fraction counts from the whole number
below, and by its distance to the whole number nearer to zero -/
def dateOfFloat (x : Binary64) : Except Problem Date :=
  match x.signedRatio? with
  | some (n, d) => dateOfMicros (microsOf (n / d) (millionths (n.natAbs % d) d))
  | none => .error .unreadableDate

/-! ## points in time -/

/-- the characters that may stand between a day and a time of day -/
def separators : List Char := ['T', 't', ' ', '_']

def twoDigits? : List Char → Option (Nat × List Char)
  | a :: b :: rest => (Date.digits? [a, b]).map fun n => (n, rest)
  | _ => none

/-- whether the characters end a time of day: nothing, or an offset of less than a day -/
def isOffset : List Char → Bool
  | [] => true
  | ['Z'] => true
  | ['z'] => true
  | sign :: rest =>
    match twoDigits? rest with
    | some (hours, rest) =>
      let minutes := match rest with
        | ':' :: rest => twoDigits? rest
        | rest => twoDigits? rest
      match minutes with
      | some (minutes, []) => ['+', '-', '\u2212'].contains sign && hours < 24 && minutes < 60
      | _ => false
    | none => false

/-- the fraction of a second, in front of what follows it; `true` if a digit up to the sixth is
not zero -/
def fractionOf? : List Char → Option (Bool × List Char)
  | c :: rest =>
    if c = '.' ∨ c = ',' then
      let digits := rest.takeWhile Char.isDigit
      if digits.isEmpty then none
      else some ((digits.take 6).any (· != '0'), rest.dropWhile Char.isDigit)
    else
      some (false, c :: rest)
  | [] => some (false, [])

/-- whether a time of day with its offset is other than midnight; none if it is no time -/
def timeAway? (cs : List Char) : Option Bool := do
  let (hour, rest) ← twoDigits? cs
  let rest ← if rest.head? = some ':' then some (rest.drop 1) else none
  let (minute, rest) ← twoDigits? rest
  let (second, away, rest) ← match rest with
    | ':' :: rest => do
      let (second, rest) ← twoDigits? rest
      let (away, rest) ← fractionOf? rest
      some (second, away, rest)
    | rest => some (0, false, rest)
  if hour < 24 ∧ minute < 60 ∧ second < 60 ∧ isOffset rest then
    some (away || hour != 0 || minute != 0 || second != 0)
  else
    none

/-- the day of a point in time that is midnight -/
def dateOfInstant? (cs : List Char) : Option (Except Problem Date) := do
  let day ← Date.ofChars? (cs.take 10)
  match cs.drop 10 with
  | sep :: rest =>
    if separators.contains sep then
      let away ← timeAway? rest
      some (if away then .error .notMidnight else .ok day)
    else
      none
  | [] => none

/-! ## fields -/

/-- a sign and the characters behind it, of which the first is a digit -/
def signed? (cs : List Char) : Option (Bool × List Char) :=
  let (negative, rest) := Decimal.splitSign cs
  if rest.head?.any Char.isDigit then some (negative, rest) else none

/-- the whole number of 64 bits that digits with a sign write -/
def countOf? (cs : List Char) : Option Int := do
  let (negative, digits) ← signed? cs
  let n : Int := ← Date.digits? digits
  if fits64 n then some (if negative then -n else n) else none

/-- the number that digits with a sign and a point write, as a numerator over a power of ten -/
def fractionCount? (cs : List Char) : Option (Int × Nat) := do
  let (negative, rest) ← signed? cs
  let whole := rest.takeWhile (· != '.')
  let fraction := (rest.dropWhile (· != '.')).drop 1
  let n : Int := ← Date.digits? whole
  if fits64 n && rest.contains '.' && fraction.all Char.isDigit then
    let num := ofNumeral (whole ++ fraction)
    let den := ofNumeral ('1' :: fraction.map fun _ => '0')
    some (if negative then -num else num, den)
  else
    none

/-- the day that a count in a text gives: of milliseconds only whole seconds count -/
def dateOfCount (n : Int) : Except Problem Date :=
  if isMillis n then
    match dateOfMicros (n / 1000 * 1000000) with
    | .ok d => .ok d
    | .error _ => dateOfWhole n
  else dateOfWhole n

/-- the day that a count with a fraction in a text gives -/
def dateOfFraction (num : Int) (den : Nat) : Except Problem Date :=
  let den := if secondsBound * den < num.natAbs then 1000 * den else den
  dateOfMicros (microsOf (num / den) (millionths (num % den).toNat den))

def dateOfText (s : String) : Except Problem Date :=
  let cs := s.toList
  match Date.ofChars? cs with
  | some d => .ok d
  | none =>
    match dateOfInstant? cs with
    | some result => result
    | none =>
      match countOf? cs, fractionCount? cs with
      | some n, _ => dateOfCount n
      | none, some (num, den) => dateOfFraction num den
      | none, none => .error .unreadableDate

def readDate : Json → Except Problem Date
  | .text s => dateOfText s
  | .int n =>
    match Binary64.ofDecimal (n < 0) n.natAbs 0 with
    | .finite .. => dateOfWhole n
    | _ => .error .notDate
  | .float x => dateOfFloat x
  | _ => .error .notDate

end Billfold.Http
