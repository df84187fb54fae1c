import Billfold.Error

/-!
# Card policies

The billing settings of a credit card.

* `DueDay`            a day of the month, 1 to 31
* `Policy`            the due day and the days the statement closes before it
* `Policy.of`         the settings, checked: the due day first, then the cutoff days
* `Policy.ofAccount`  only accounts of the card kind have a policy
-/

namespace Billfold

/-- a day of the month; shorter months use their last day instead -/
abbrev DueDay := { day : Nat // 1 ≤ day ∧ day ≤ 31 }

/-- the billing settings of a credit card -/
structure Policy where
  dueDay : Option DueDay
  cutoffDays : Option Nat
deriving DecidableEq

namespace Policy

/-- the days from the statement's cutoff to the due day -/
def offset (p : Policy) : Nat := p.cutoffDays.getD 0

def dueDayOf : Option Int → Except Error (Option DueDay)
  | none => .ok none
  | some given =>
    if h : 1 ≤ given.toNat ∧ given.toNat ≤ 31 then
      .ok (some ⟨given.toNat, h⟩)
    else
      .error (.refused (.dueDay given))

def cutoffDaysOf : Option Int → Except Error (Option Nat)
  | none => .ok none
  | some given =>
    if given < 0 then .error (.refused (.cutoffDays given)) else .ok (some given.toNat)

def of (dueDay cutoffDays : Option Int) : Except Error Policy := do
  let dueDay ← dueDayOf dueDay
  let cutoffDays ← cutoffDaysOf cutoffDays
  return { dueDay, cutoffDays }

def cardKind : String := "credit_card"

/-- the policy of an account: only a credit card has one -/
def ofAccount (kind : String) (dueDay cutoffDays : Option Int) : Except Error (Option Policy) :=
  if kind = cardKind then some <$> of dueDay cutoffDays else .ok none

end Policy

end Billfold
