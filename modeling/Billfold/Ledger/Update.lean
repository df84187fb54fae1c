import Billfold.Ledger.Inquiry
import Billfold.Ledger.Stamping

/-!
# Updating entries

An amount is given as a magnitude and gets the sign of the direction; without a direction the row
keeps its own.  The stamp changes only if the deferral flag does.

* `Changes`         what is to change
* `Row.edit`        a row with the changes
* `Ledger.update`   makes the changes, and gives the entry back as the book keeps it
-/

namespace Billfold

open Act

/-- what is to change; null values change nothing -/
structure Changes where
  name : Option String
  amount : Amount
  deferred : Option Bool
  nature : Json
  /-- whether the store can write the name -/
  isWritable : Bool := true

def Json.isNull : Json → Bool
  | .null => true
  | _ => false

def Amount.isNull : Amount → Bool
  | .value v => v.isNull
  | .decimal _ => false

def Row.direction (r : Row) : Except Fault Json := do
  return .text (if ← r.amount.isNegative then "inflow" else "outflow")

def Row.editAmount (r : Row) (c : Changes) : Except Error Decimal := do
  if c.amount.isNull && c.nature.isNull then return r.amount
  let given := if c.amount.isNull then .decimal r.amount else c.amount
  let magnitude ← Except.liftFault (← given.read).abs
  let direction ←
    if c.nature.isTruthy then pure c.nature else Except.liftFault r.direction
  (Amount.decimal magnitude).signed direction

def Row.edit (r : Row) (c : Changes) : Except Error Row := do
  let amount ← r.editAmount c
  return { r with name := c.name.getD r.name, amount, deferred := c.deferred.getD r.deferred }

namespace Ledger

/-- puts a row into the book in place of an older one -/
def keepRow (r old : Row) : Act Row := do
  match r.over? old with
  | some settled =>
    setBook ((← get).book.putRow settled)
    return settled
  | none => fail (.fault .emptyColumn)

def update (id : String) (c : Changes) : Act Entry := do
  let settled ← transact do
    let row ← rowFor id
    let edited ← ofResult (row.edit c)
    needWritable c.isWritable
    if needsStamp row.deferred edited.deferred then
      let policy ← ofResult ((← get).book.policyOf edited)
      keepRow (← stampRow policy edited .relock) row
    else
      keepRow edited row
  ofFault settled.entry

end Ledger

end Billfold
