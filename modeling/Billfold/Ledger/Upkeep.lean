import Billfold.Ledger.Update

/-!
# Upkeep

Opening accounts, and changes made to stored columns directly.

* `NewAccount`, `Ledger.openAccount`       a new account
* `AccountChange`, `Ledger.editAccount`    columns of an account
* `RowChange`, `Ledger.editRow`            columns of a row
* `Ledger.deleteRow`, `Ledger.allRows`     dropping a row, and listing all
-/

namespace Billfold

open Act

structure NewAccount where
  name : Option String
  kind : Option String
  currency : Option String
  dueDay : Option Int
  cutoffDays : Option Int

def fitsColumn (n : Option Int) : Bool :=
  match n with
  | some n => fits64 n
  | none => true

def Account.fits (a : Account) : Bool := fitsColumn a.dueDay && fitsColumn a.cutoffDays

def Ledger.openAccount (a : NewAccount) : Act Account := do
  let _ ← ofResult (Policy.of a.dueDay a.cutoffDays)
  statement
  let id ← freshId
  match a.name with
  | none => fail (.fault .emptyColumn)
  | some name =>
    let account : Account := {
      id
      name
      kind := a.kind.getD "depository"
      currency := a.currency.getD "USD"
      dueDay := a.dueDay
      cutoffDays := some (a.cutoffDays.getD 0)
    }
    if !account.fits then fail (.fault .outOfRange)
    setBook ((← get).book.addAccount account)
    return account

/-! ## stored columns -/

/-- a new value of a stored column of an account -/
inductive AccountChange where
  | name (value : String)
  | kind (value : String)
  | currency (value : String)
  | dueDay (value : Option Int)
  | cutoffDays (value : Option Int)
  /-- a column that must be filled is emptied -/
  | emptied

/-- a new value of a stored column of a row -/
inductive RowChange where
  | account (value : String)
  | name (value : String)
  | date (value : Date)
  | amount (value : Decimal)
  | currency (value : String)
  | deferred (value : Bool)
  | month (value : Option Date)
  | lockedAt (value : Option Instant)
  | extra (value : Json)
  /-- a column that must be filled is emptied -/
  | emptied

namespace Account

def change (a : Account) : AccountChange → Except Fault Account
  | .name value => .ok { a with name := value }
  | .kind value => .ok { a with kind := value }
  | .currency value => .ok { a with currency := value }
  | .dueDay value => .ok { a with dueDay := value }
  | .cutoffDays value => .ok { a with cutoffDays := value }
  | .emptied => .error .emptyColumn

end Account

namespace Row

def change (r : Row) : RowChange → Except Fault Row
  | .account value => .ok { r with account := value }
  | .name value => .ok { r with name := value }
  | .date value => .ok { r with date := value }
  | .amount value => .ok { r with amount := value }
  | .currency value => .ok { r with currency := value }
  | .deferred value => .ok { r with deferred := value }
  | .month value => .ok { r with month := value }
  | .lockedAt value => .ok { r with lockedAt := value }
  | .extra value => .ok { r with extra := value }
  | .emptied => .error .emptyColumn

end Row

namespace Ledger

/-- sets columns of an account; without a change even a missing account is no fault -/
def editAccount (id : String) (changes : List AccountChange) : Act Unit :=
  transact do
    match (← book).account? id with
    | none => if changes.isEmpty then pure () else fail (.fault .noProperty)
    | some account =>
      let changed ← ofFault (changes.foldlM Account.change account)
      if !changed.fits then fail (.fault .outOfRange)
      setBook ((← get).book.putAccount changed)

/-- sets columns of a row; without a change even a missing row is no fault -/
def editRow (id : String) (changes : List RowChange) : Act Unit :=
  transact do
    match (← book).row? id with
    | none => if changes.isEmpty then pure () else fail (.fault .noProperty)
    | some row =>
      let changed ← ofFault (changes.foldlM Row.change row)
      let _ ← keepRow changed row

def deleteRow (id : String) : Act Unit := do
  let b ← book
  setBook (b.dropRow id)

/-- all rows in the order in which they were entered -/
def allRows : Act (List Row) := do return (← book).rows

/-- lets the `n`-th row from now be refused -/
def refuseRow (n : Nat) : Act Unit := modify fun s => { s with refusing := some n }

def setClock (now : Instant) : Act Unit := modify fun s => { s with clock := now }

end Ledger

end Billfold
