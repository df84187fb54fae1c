import Billfold.Calendar.Month
import Billfold.Card.Policy

/-!
# Billing cycles

A card's bill of a month is due on the due day, pulled back to the month's last day.  Its
statement closes on the cutoff, some days before; a charge on or after the cutoff of its month
goes to the next month's bill.

* `Policy.cutoff`       the cutoff of a day's month
* `Policy.paymentDue`   the due date of a day's month
* `Policy.rollsOver`    whether a charge is on or after a month's cutoff
* `Policy.window`       the first and last day of the cycle that a due date pays
* `Policy.cycle`        cutoff and due date together

A policy without a due day has none of these.
-/

namespace Billfold

structure Cycle where
  cutoff : Date
  due : Date
deriving DecidableEq

/-- the first and the last day of a billing cycle -/
structure Window where
  first : Date
  last : Date
deriving DecidableEq

def DueDay.inMonthOf (day : DueDay) (d : Date) : Date := d.withDay day.1 day.2.1

namespace Policy

/-- the last day counted in the bill of `reference`'s month -/
def cutoff (p : Policy) (reference : Date) : Except Fault (Option Date) :=
  match p.dueDay with
  | none => .ok none
  | some day => some <$> (day.inMonthOf reference).shift (-p.offset)

def paymentDue (p : Policy) (reference : Date) : Except Fault (Option Date) := do
  match p.dueDay, ← p.cutoff reference with
  | some day, some close =>
    if close ≤ day.inMonthOf reference then
      return some (day.inMonthOf reference)
    else
      return some (day.inMonthOf (← reference.addMonths 1))
  | _, _ => return none

/-- whether a charge falls on or after the cutoff of `reference`'s month -/
def rollsOver (p : Policy) (charged reference : Date) : Except Fault Bool := do
  match ← p.cutoff reference with
  | some close => return decide (close ≤ charged)
  | none => return false

/-- the cycle whose statement is paid on `due`: from the day after the previous month's cutoff to
the due date less the cutoff days -/
def window (p : Policy) (due : Date) : Except Fault (Option Window) :=
  match p.dueDay with
  | none => .ok none
  | some day => do
    let last ← due.shift (-p.offset)
    let previous ← (day.inMonthOf (← due.addMonths (-1))).shift (-p.offset)
    return some ⟨← previous.shift 1, last⟩

def cycle (p : Policy) (reference : Date) : Except Fault (Option Cycle) := do
  match ← p.cutoff reference, ← p.paymentDue reference with
  | some cutoff, some due => return some ⟨cutoff, due⟩
  | _, _ => return none

end Policy

end Billfold
