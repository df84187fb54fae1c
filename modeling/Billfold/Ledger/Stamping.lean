import Billfold.Ledger.Session

/-!
# Stamping rows

* `Ledger.stampRow`   a row with the stamp of its account's policy at the current time; counted, and
                      logged if there is one
-/

namespace Billfold

open Act

def stampFields (id : String) (stamp : Stamp) (reason : StampReason) : Fields :=
  [("transaction_id", .text id), ("step", .text "cycle_lock"),
    ("billing_cycle_month", .text stamp.month.text), ("reason", .text reason.text)]

/-- the stamp of a row under a policy; the row must be readable -/
def Row.stamp (r : Row) (policy : Option Policy) (now : Instant) : Except Fault (Option Stamp) := do
  stampFor policy (← r.entry).charge now

def Row.stamped (r : Row) (stamp : Stamp) : Row :=
  { r with month := some stamp.month, lockedAt := some stamp.lockedAt }

/-- the row with the stamp that the policy decides, if it decides one -/
def Ledger.stampRow (policy : Option Policy) (r : Row) (reason : StampReason) : Act Row := do
  match ← ofFault (r.stamp policy (← get).clock) with
  | none =>
    count (.stamps .skipped) 1
    return r
  | some stamp =>
    count (.stamps reason) 1
    note .debug "Billing cycle locked" (stampFields r.id stamp reason)
    return r.stamped stamp

end Billfold
