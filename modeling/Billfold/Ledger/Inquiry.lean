import Billfold.Ledger.Session

/-!
# Inquiries

What the ledger tells without changing anything.

* `Info`                  an entry with its payment date and its mark
* `Ledger.paymentInfo`    that of one entry
* `Ledger.group`          those of all periods of a plan, in their order
* `Ledger.billingCycle`   the cycle of a day's month and the window that its due date pays
-/

namespace Billfold

open Act

/-- an entry with its payment date, and whether it is marked as billed later -/
structure Info where
  entry : Entry
  due : Option Date
  badge : Bool

/-- the policy of a row's account; a row without an account has none to ask -/
def Book.policyOf (b : Book) (r : Row) : Except Error (Option Policy) :=
  match b.account? r.account with
  | some a => a.policy
  | none => .error (.fault .noProperty)

def Book.info (b : Book) (r : Row) : Except Error Info := do
  let policy ← b.policyOf r
  let entry ← Except.liftFault r.entry
  let due ← Except.liftFault (shownDue policy entry.charge)
  return ⟨entry, due, showsBadge policy entry.charge⟩

def Ledger.rowFor (id : String) : Act Row := do
  require ((← book).row? id) (.notFound (.entry id))

def Ledger.paymentInfo (id : String) : Act Info := do
  let row ← Ledger.rowFor id
  ofResult ((← book).info row)

/-! ## plans -/

/-- the metadata of a row as fields, nothing given being none -/
def Row.fields (r : Row) : Except Fault Fields :=
  if r.extra.isTruthy then
    match r.extra with
    | .object fields => .ok fields
    | _ => .error .noProperty
  else
    .ok []

def inGroup (group : String) (metadata : Fields) : Bool :=
  match metadata.get Tag.groupKey with
  | .text s => s = group
  | _ => false

def periodKey (metadata : Fields) : Json := (metadata.get? Tag.indexKey).getD (.int 0)

def Book.groupRows (b : Book) (account group : String) : Except Fault (List Row) := do
  let rows ← (b.rowsOf account).mapM fun r => do return (← r.fields, r)
  let matching := rows.filter fun (metadata, _) => inGroup group metadata
  let sorted ← Json.sortBy (fun (metadata, _) => periodKey metadata) matching
  return sorted.map Prod.snd

def Ledger.group (account group : String) : Act (List Info) := do
  let found ← require ((← book).account? account) (.notFound (.account account))
  let b ← book
  match ← ofFault (b.groupRows found.id group) with
  | [] => fail (.notFound (.plan group))
  | rows => ofResult (rows.mapM b.info)

/-! ## billing cycles -/

def Ledger.billingCycle (account : String) (reference : Date) :
    Act (Option Cycle × Option Window) := do
  let found ← require ((← book).account? account) (.notFound (.account account))
  match ← ofResult found.policy with
  | none => return (none, none)
  | some policy =>
    match ← ofFault (policy.cycle reference) with
    | none => return (none, none)
    | some cycle => return (some cycle, ← ofFault (policy.window cycle.due))

end Billfold
