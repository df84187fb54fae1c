import Billfold.Calendar.Instant
import Billfold.Card.Cycle

/-!
# Stamps

The month in which a charge is paid is stamped on it when it is recorded, and stays when the
card's settings change later.

* `Charge`            what of an entry decides its bill: day, deferral flag, stamped month
* `resolveDue`        the due date under the current policy, any stamp left aside
* `Stamp`, `stampFor` the month to keep and when it was set
* `shownDue`          the payment date shown: in the stamped month if there is one
* `showsBadge`        whether the charge is marked as billed later
-/

namespace Billfold

structure Charge where
  date : Date
  deferred : Bool
  /-- a day of the stamped month -/
  month : Option Date
deriving DecidableEq

/-- a payment month with the time it was set -/
structure Stamp where
  month : Date
  lockedAt : Instant
deriving DecidableEq

/-- the due date under the current policy: next month's if the charge is deferred or on or after
its month's cutoff -/
def resolveDue (policy : Option Policy) (c : Charge) : Except Fault (Option Date) :=
  match policy with
  | none => .ok none
  | some p =>
    match p.dueDay with
    | none => .ok none
    | some _ => do
      if c.deferred then
        p.paymentDue (← c.date.addMonths 1)
      else if ← p.rollsOver c.date c.date then
        p.paymentDue (← c.date.addMonths 1)
      else
        p.paymentDue c.date

def stampFor (policy : Option Policy) (c : Charge) (now : Instant) :
    Except Fault (Option Stamp) := do
  match ← resolveDue policy c with
  | none => return none
  | some due => return some ⟨due.firstOfMonth, now⟩

def needsStamp (before after : Bool) : Bool := before != after

/-- the payment date shown: the charge's own day without a due day, the due day of the stamped
month, or else what the current policy decides -/
def shownDue (policy : Option Policy) (c : Charge) : Except Fault (Option Date) :=
  match policy.bind Policy.dueDay with
  | none => .ok (some c.date)
  | some day =>
    match c.month with
    | some month => .ok (some (day.inMonthOf month))
    | none => resolveDue policy c

/-- whether the charge is marked as billed later: it is deferred, or stamped with a later month -/
def showsBadge (policy : Option Policy) (c : Charge) : Bool :=
  match policy with
  | none => false
  | some p =>
    if c.deferred then true
    else
      match p.dueDay, c.month with
      | some _, some month => decide (c.date.inMonth < month.inMonth)
      | _, _ => false

end Billfold
