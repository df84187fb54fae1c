import Billfold.Calendar.Date
import Billfold.Number.Width

/-!
# Calendar months

Months are numbered through all years, so moving by months is addition.

* `Month`            a month of any year, by its index `12 * year + (number - 1)`
* `Date.inMonth`     the month of a day
* `Date.withDay`     the day of the same month with a given number, pulled back to the month's last
* `Date.addMonths`   the same day of another month, pulled back to that month's last
* `clampDay`         a day from three numbers, pulled back to the month's last
-/

namespace Billfold

structure Month where
  /-- `12 * year + (number - 1)` -/
  index : Int
deriving DecidableEq, Repr

namespace Month

def of (year : Int) (number : Nat) : Month := ⟨12 * year + (number - 1)⟩

def year (m : Month) : Int := m.index / 12

/-- 1 to 12 -/
def number (m : Month) : Nat := (m.index % 12).toNat + 1

def shift (m : Month) (months : Int) : Month := ⟨m.index + months⟩

def lastDay (m : Month) : Nat := daysInMonth m.year m.number

instance : LE Month := ⟨fun a b => a.index ≤ b.index⟩
instance : LT Month := ⟨fun a b => a.index < b.index⟩
instance (a b : Month) : Decidable (a ≤ b) := inferInstanceAs (Decidable (a.index ≤ b.index))
instance (a b : Month) : Decidable (a < b) := inferInstanceAs (Decidable (a.index < b.index))

theorem number_pos (m : Month) : 1 ≤ m.number := by unfold number; omega

theorem number_le (m : Month) : m.number ≤ 12 := by unfold number; omega

theorem year_of (y : Int) {n : Nat} (h : 1 ≤ n) (h' : n ≤ 12) : (of y n).year = y := by
  simp only [of, year]; omega

theorem number_of (y : Int) {n : Nat} (h : 1 ≤ n) (h' : n ≤ 12) : (of y n).number = n := by
  simp only [of, number]; omega

end Month

namespace Date

def inMonth (d : Date) : Month := Month.of d.year d.month

def firstOfMonth (d : Date) : Date where
  year := d.year
  month := d.month
  day := 1
  year_pos := d.year_pos
  year_le := d.year_le
  month_pos := d.month_pos
  month_le := d.month_le
  day_pos := Nat.le_refl 1
  day_le := Nat.le_trans (by decide) (daysInMonth_ge d.year d.month)

def withDay (d : Date) (day : Nat) (pos : 1 ≤ day) : Date where
  year := d.year
  month := d.month
  day := min day (daysInMonth d.year d.month)
  year_pos := d.year_pos
  year_le := d.year_le
  month_pos := d.month_pos
  month_le := d.month_le
  day_pos := Nat.le_min.2 ⟨pos, Nat.le_trans (by decide) (daysInMonth_ge d.year d.month)⟩
  day_le := Nat.min_le_right _ _

/-- the day of month `m` with the number `day`, or the month's last day -/
def inside (m : Month) (day : Nat) : Except Fault Date :=
  match of? m.year.toNat m.number (min day m.lastDay) with
  | some d => .ok d
  | none => .error (if fits32 m.year then .badValue else .outOfRange)

/-- `d` moved by whole months, its day pulled back to the last day of a shorter month -/
def addMonths (d : Date) (months : Int) : Except Fault Date :=
  inside (d.inMonth.shift months) d.day

end Date

def lastDayOfMonth (year month : Int) : Except Fault Nat :=
  if 1 ≤ month ∧ month ≤ 12 then .ok (daysInMonth year month.toNat) else .error .badMonth

def clampDay (year month day : Int) : Except Fault Date := do
  let last ← lastDayOfMonth year month
  let day := min day last
  if !fits32 year || !fits32 day then
    .error .outOfRange
  else
    match Date.of? year.toNat month.toNat day.toNat with
    | some d => .ok d
    | none => .error .badValue

end Billfold
