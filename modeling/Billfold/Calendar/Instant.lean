import Billfold.Calendar.Date
import Billfold.Number.Digits

/-!
# Points in time

A day with a time of day, and the offset from universal time if it is known.

* `Offset`, `Instant`   the types
* `Instant.wall`        the same wall time without its offset, which is what the store keeps
* `Date.text`, `Instant.text`     ISO 8601: a fraction of six digits only if it is not zero
* `Date.ofText?`, `Instant.ofText?`   the way back
-/

namespace Billfold

/-! ## days in text -/

namespace Date

/-- year, month and day in digits, with hyphens between -/
def text (d : Date) : String :=
  String.ofList (padded 10 4 d.year ++ '-' :: padded 10 2 d.month ++ '-' :: padded 10 2 d.day)

/-- the number that the digits write, if there are only digits -/
def digits? (cs : List Char) : Option Nat :=
  if cs.all Char.isDigit then some (ofNumeral cs) else none

def ofChars? : List Char → Option Date
  | [y₁, y₂, y₃, y₄, '-', m₁, m₂, '-', d₁, d₂] => do
    of? (← digits? [y₁, y₂, y₃, y₄]) (← digits? [m₁, m₂]) (← digits? [d₁, d₂])
  | _ => none

def ofText? (s : String) : Option Date := ofChars? s.toList

end Date

/-! ## times of day -/

/-- the distance of a wall clock from universal time -/
structure Offset where
  west : Bool
  seconds : Nat
deriving DecidableEq, Repr

/-- a day with a time of day -/
structure Instant where
  date : Date
  hour : Nat
  minute : Nat
  second : Nat
  microsecond : Nat
  offset : Option Offset
deriving DecidableEq

namespace Offset

def text (o : Offset) : List Char :=
  let minutes := o.seconds / 60
  (if o.west then '-' else '+') :: padded 10 2 (minutes / 60) ++
    ':' :: padded 10 2 (minutes % 60) ++
    (if o.seconds % 60 = 0 then [] else ':' :: padded 10 2 (o.seconds % 60))

/-- the seconds that minutes and seconds behind colons make -/
def secondsOf? : List Char → Option Nat
  | [] => some 0
  | [':', m₁, m₂] => (Date.digits? [m₁, m₂]).map (· * 60)
  | [':', m₁, m₂, ':', s₁, s₂] => do
    let minutes ← Date.digits? [m₁, m₂]
    let seconds ← Date.digits? [s₁, s₂]
    some (minutes * 60 + seconds)
  | _ => none

def ofChars? : List Char → Option Offset
  | ['Z'] => some ⟨false, 0⟩
  | sign :: h₁ :: h₂ :: rest => do
    let west ← if sign = '+' then some false else if sign = '-' then some true else none
    let hours ← Date.digits? [h₁, h₂]
    let total := hours * 3600 + (← secondsOf? rest)
    some ⟨west && total != 0, total⟩
  | _ => none

end Offset

namespace Instant

def midnight (d : Date) : Instant := ⟨d, 0, 0, 0, 0, none⟩

def wall (t : Instant) : Instant := { t with offset := none }

def text (t : Instant) : String :=
  t.date.text ++ String.ofList
    ('T' :: padded 10 2 t.hour ++ ':' :: padded 10 2 t.minute ++ ':' :: padded 10 2 t.second ++
      (if t.microsecond = 0 then [] else '.' :: padded 10 6 t.microsecond) ++
      (t.offset.map Offset.text).getD [])

/-- the fraction of a second in front of an offset, in microseconds -/
def fraction? (cs : List Char) : Option (Nat × List Char) :=
  match cs with
  | '.' :: rest =>
    let digits := rest.takeWhile Char.isDigit
    if digits.isEmpty then none
    else some (ofNumeral ((digits ++ List.replicate 6 '0').take 6), rest.dropWhile Char.isDigit)
  | rest => some (0, rest)

/-- the offset at the end, which may be missing -/
def offset? (cs : List Char) : Option (Option Offset) :=
  match cs with
  | [] => some none
  | rest => (Offset.ofChars? rest).map some

/-- the time of day written after a day -/
def ofTail? (date : Date) : List Char → Option Instant
  | [] => some (midnight date)
  | _ :: h₁ :: h₂ :: ':' :: m₁ :: m₂ :: ':' :: s₁ :: s₂ :: rest => do
    let hour ← Date.digits? [h₁, h₂]
    let minute ← Date.digits? [m₁, m₂]
    let second ← Date.digits? [s₁, s₂]
    let (microsecond, rest) ← fraction? rest
    let offset ← offset? rest
    if hour < 24 ∧ minute < 60 ∧ second < 60 then
      some ⟨date, hour, minute, second, microsecond, offset⟩
    else
      none
  | _ :: h₁ :: h₂ :: ':' :: m₁ :: m₂ :: rest => do
    let hour ← Date.digits? [h₁, h₂]
    let minute ← Date.digits? [m₁, m₂]
    let offset ← offset? rest
    if hour < 24 ∧ minute < 60 then some ⟨date, hour, minute, 0, 0, offset⟩ else none
  | _ => none

def ofText? (s : String) : Option Instant := do
  let cs := s.toList
  ofTail? (← Date.ofChars? (cs.take 10)) (cs.drop 10)

end Instant

end Billfold
