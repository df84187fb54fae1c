import Billfold.Book.Money
import Billfold.Entry.Basic

/-!
# The book

Accounts and rows in the order in which they were entered.  A row is an entry with its metadata in
stored form.

* `Account`, `Row`, `Book`      the types
* `Account.policy`              the billing policy of an account
* `Row.entry`, `Entry.row`      a row as an entry, and an entry as a row
* `Row.settled?`, `Row.over?`   a row as the book keeps it
* `Book.row?`, `Book.putRow`, `Book.addRow`, `Book.dropRow`   look-up and change
-/

namespace Billfold

structure Account where
  id : String
  name : String
  kind : String
  currency : String
  dueDay : Option Int
  cutoffDays : Option Int
deriving DecidableEq, Repr

/-- a stored movement -/
structure Row where
  id : String
  account : String
  name : String
  date : Date
  amount : Decimal
  currency : String
  deferred : Bool
  /-- a day of the stamped month -/
  month : Option Date
  lockedAt : Option Instant
  /-- the metadata as stored -/
  extra : Json

/-- accounts and rows as they were entered -/
structure Book where
  accounts : List Account
  rows : List Row

namespace Account

/-- the billing policy, checked; only a credit card has one -/
def policy (a : Account) : Except Error (Option Policy) :=
  Policy.ofAccount a.kind a.dueDay a.cutoffDays

end Account

namespace Row

/-- the row as an entry, its amount in cents -/
def entry (r : Row) : Except Fault Entry := do
  let extra ← Entry.readExtra r.extra
  let amount ← r.amount.toCents
  return {
    id := some r.id
    account := r.account
    name := r.name
    date := r.date
    amount
    currency := r.currency
    deferred := r.deferred
    month := r.month
    lockedAt := r.lockedAt
    suggestion := extra.suggestion
    tag := extra.tag
    extra := extra.rest
  }

/-- the row as the book keeps it: the amount as it comes back, times without their offset -/
def settled? (r : Row) : Option Row :=
  (settle? r.amount).map fun amount => { r with amount, lockedAt := r.lockedAt.map Instant.wall }

/-- the row as the book keeps it in place of an older one; amount and metadata are written only if
their value differs -/
def over? (r old : Row) : Option Row :=
  r.settled?.map fun settled => { settled with
    amount := if r.amount.sameValue old.amount then old.amount else settled.amount
    extra := if r.extra.same old.extra then old.extra else r.extra }

end Row

/-- an entry as a row with the given number -/
def Entry.row (e : Entry) (id : String) : Row where
  id := id
  account := e.account
  name := e.name
  date := e.date
  amount := e.amount
  currency := e.currency
  deferred := e.deferred
  month := e.month
  lockedAt := e.lockedAt
  extra := .object e.writeExtra

namespace Book

def empty : Book := ⟨[], []⟩

def account? (b : Book) (id : String) : Option Account := b.accounts.find? fun a => a.id = id

def row? (b : Book) (id : String) : Option Row := b.rows.find? fun r => r.id = id

def addAccount (b : Book) (a : Account) : Book := { b with accounts := b.accounts ++ [a] }

def addRow (b : Book) (r : Row) : Book := { b with rows := b.rows ++ [r] }

/-- the account in place of the one with its id -/
def putAccount (b : Book) (a : Account) : Book :=
  { b with accounts := b.accounts.map fun c => if c.id = a.id then a else c }

/-- the row in place of the one with its id -/
def putRow (b : Book) (r : Row) : Book :=
  { b with rows := b.rows.map fun s => if s.id = r.id then r else s }

def dropRow (b : Book) (id : String) : Book := { b with rows := b.rows.filter fun r => r.id != id }

def rowsOf (b : Book) (account : String) : List Row := b.rows.filter fun r => r.account = account

/-! ### look-up after a change -/

theorem id_of_row? {b : Book} {id : String} {r : Row} (h : b.row? id = some r) : r.id = id := by
  simpa using List.find?_some h

/-- a look-up finds the same row as before, or the new one in its place -/
theorem row?_putRow (b : Book) (r : Row) (id : String) :
    (b.putRow r).row? id = (b.row? id).map fun s => if s.id = r.id then r else s := by
  have same : ∀ s : Row, (if s.id = r.id then r else s).id = s.id := by
    intro s
    split
    · next h => exact h.symm
    · rfl
  have looks : ((fun s : Row => decide (s.id = id)) ∘ fun s => if s.id = r.id then r else s) =
      fun s => decide (s.id = id) := by
    funext s
    show decide ((if s.id = r.id then r else s).id = id) = decide (s.id = id)
    rw [same]
  unfold row? putRow
  rw [List.find?_map, looks]

theorem row?_putRow_self {b : Book} {r old : Row} (h : b.row? r.id = some old) :
    (b.putRow r).row? r.id = some r := by
  simp [row?_putRow, h, id_of_row? h]

theorem row?_putRow_of_ne (b : Book) (r : Row) {id : String} (h : id ≠ r.id) :
    (b.putRow r).row? id = b.row? id := by
  rw [row?_putRow]
  cases found : b.row? id with
  | none => rfl
  | some s => simp [id_of_row? found, h]

theorem row?_dropRow_self (b : Book) (id : String) : (b.dropRow id).row? id = none := by
  simp [row?, dropRow]

theorem row?_dropRow_of_ne (b : Book) {id other : String} (h : other ≠ id) :
    (b.dropRow id).row? other = b.row? other := by
  have same : ∀ r : Row,
      (!decide (r.id = id) && decide (r.id = other)) = decide (r.id = other) := by
    intro r
    by_cases hr : r.id = other <;> simp [hr, h]
  simp [row?, dropRow, List.find?_filter, same]

end Book

end Billfold
