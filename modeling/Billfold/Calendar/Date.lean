import Billfold.Fault

/-!
# Calendar days

The proleptic Gregorian calendar.  The leap rule and the month lengths hold for every integer year;
a `Date` is a day of the years 1 to 9999.

* `isLeap`, `daysInMonth`   the leap rule and the month lengths
* `Date`                    a day, valid by construction
* `Date.number`             the days numbered from 1 (1 January of year 1); it gives the order
* `Date.ofNumber?`          the day with a given number
* `Date.shift`              a day moved by a number of days
-/

namespace Billfold

/-! ## years and months -/

/-- every fourth year, of the centuries every fourth -/
def isLeap (year : Int) : Bool :=
  year % 4 == 0 && (year % 100 != 0 || year % 400 == 0)

/-- the number of days of a month, `month` running from 1 to 12 -/
def daysInMonth (year : Int) (month : Nat) : Nat :=
  if month = 2 then (if isLeap year then 29 else 28)
  else if month = 4 ∨ month = 6 ∨ month = 9 ∨ month = 11 then 30
  else 31

theorem daysInMonth_ge (year : Int) (month : Nat) : 28 ≤ daysInMonth year month := by
  unfold daysInMonth; split
  · split <;> omega
  · split <;> omega

theorem daysInMonth_le (year : Int) (month : Nat) : daysInMonth year month ≤ 31 := by
  unfold daysInMonth; split
  · split <;> omega
  · split <;> omega

def daysBeforeMonth (year : Int) : Nat → Nat
  | 0 => 0
  | 1 => 0
  | m + 2 => daysBeforeMonth year (m + 1) + daysInMonth year (m + 1)

/-- days before 1 January of the year, from 1 January of year 1 -/
def daysBeforeYear (year : Nat) : Nat :=
  365 * (year - 1) + (year - 1) / 4 - (year - 1) / 100 + (year - 1) / 400

theorem daysBeforeMonth_succ (year : Int) {m : Nat} (h : 1 ≤ m) :
    daysBeforeMonth year (m + 1) = daysBeforeMonth year m + daysInMonth year m := by
  cases m with
  | zero => omega
  | succ m => rfl

/-! ## days -/

/-- a day of the years 1 to 9999 -/
structure Date where
  year : Nat
  month : Nat
  day : Nat
  year_pos : 1 ≤ year
  year_le : year ≤ 9999
  month_pos : 1 ≤ month
  month_le : month ≤ 12
  day_pos : 1 ≤ day
  day_le : day ≤ daysInMonth year month
deriving DecidableEq

namespace Date

/-- the day with these numbers, if there is one -/
def of? (year month day : Nat) : Option Date :=
  if h : 1 ≤ year ∧ year ≤ 9999 ∧ 1 ≤ month ∧ month ≤ 12 ∧ 1 ≤ day ∧
      day ≤ daysInMonth year month then
    some ⟨year, month, day, h.1, h.2.1, h.2.2.1, h.2.2.2.1, h.2.2.2.2.1, h.2.2.2.2.2⟩
  else
    none

theorem of?_self (d : Date) : of? d.year d.month d.day = some d := by
  have h := And.intro d.year_pos <| And.intro d.year_le <| And.intro d.month_pos <|
    And.intro d.month_le <| And.intro d.day_pos d.day_le
  simp only [of?, dif_pos h]

/-- the days are numbered from 1, which is 1 January of year 1 -/
def number (d : Date) : Nat :=
  daysBeforeYear d.year + daysBeforeMonth d.year d.month + d.day

/-- the number of 31 December 9999 -/
def lastNumber : Nat := 3652059

instance : LE Date := ⟨fun a b => a.number ≤ b.number⟩
instance : LT Date := ⟨fun a b => a.number < b.number⟩
instance (a b : Date) : Decidable (a ≤ b) := inferInstanceAs (Decidable (a.number ≤ b.number))
instance (a b : Date) : Decidable (a < b) := inferInstanceAs (Decidable (a.number < b.number))

theorem le_def (a b : Date) : a ≤ b ↔ a.number ≤ b.number := Iff.rfl
theorem lt_def (a b : Date) : a < b ↔ a.number < b.number := Iff.rfl

/-! ## the day with a number -/

/-- the year of day `n`, looked for upwards from `year` in at most `steps` steps -/
def yearFrom (n : Nat) : Nat → Nat → Nat
  | 0, year => year
  | steps + 1, year => if daysBeforeYear (year + 1) < n then yearFrom n steps (year + 1) else year

/-- the month of day `n` of the year, looked for upwards from `month` in at most `steps` steps -/
def monthFrom (year : Int) (n : Nat) : Nat → Nat → Nat
  | 0, month => month
  | steps + 1, month =>
    if daysBeforeMonth year (month + 1) < n then monthFrom year n steps (month + 1) else month

def ofNumber? (n : Int) : Option Date :=
  if 1 ≤ n ∧ n ≤ lastNumber then
    let k := n.toNat
    let year := yearFrom k 9999 (k / 366 + 1)
    let inYear := k - daysBeforeYear year
    let month := monthFrom year inYear 11 1
    of? year month (inYear - daysBeforeMonth year month)
  else
    none

/-- the day `days` after `d`; days before year 1 and after year 9999 do not exist -/
def shift (d : Date) (days : Int) : Except Fault Date :=
  match ofNumber? (d.number + days) with
  | some e => .ok e
  | none => .error .outOfRange

end Date

end Billfold
