import Billfold.Ledger.Stamping

/-!
# Creating entries

One entry, or one for each period of a plan.  Everything is checked before the first row is
written, and a row that the store refuses takes the whole batch with it.

* `NewEntry`      what is asked for
* `candidates`    the entries to write
* `Ledger.create` writes them, and gives them back as the book keeps them
-/

namespace Billfold

open Act

/-- what is asked for; values as they are given -/
structure NewEntry where
  account : String
  name : Option String
  date : Date
  amount : Amount
  nature : Json
  currency : Option String
  count : Json
  mode : Json
  deferred : Bool
  /-- the request that the log names -/
  request : Option String
  /-- whether the store can write the texts -/
  isWritable : Bool := true

namespace NewEntry

def givenName (e : NewEntry) : String := e.name.getD ""

def currencyIn (e : NewEntry) (a : Account) : String :=
  match e.currency with
  | some c => if c.isEmpty then a.currency else c
  | none => a.currency

/-- the entry of a request that is not divided, not yet numbered -/
def base (e : NewEntry) (a : Account) (amount : Decimal) : Entry where
  id := none
  account := a.id
  name := e.givenName
  date := e.date
  amount := amount
  currency := e.currencyIn a
  deferred := e.deferred
  month := none
  lockedAt := none
  suggestion := none
  tag := none
  extra := []

end NewEntry

def Plan.entry (p : Plan) (base : Entry) (line : Line) : Entry :=
  { base with
    name := line.name, date := line.date, amount := line.amount, tag := some (p.tag line) }

def candidates (base : Entry) (plan : Option Plan) : List Entry :=
  match plan with
  | some p => p.lines.map (p.entry base)
  | none => [base]

/-! ## writing -/

namespace Ledger

/-- one more row is tried; the one that was to be refused is -/
def tryRow : Act Unit := do
  match (← get).refusing with
  | none => pure ()
  | some 0 => pure ()
  | some 1 =>
    modify fun s => { s with refusing := none }
    fail (.fault .rowRefused)
  | some (n + 2) => modify fun s => { s with refusing := some (n + 1) }

def addRow (isWritable : Bool) (e : Entry) : Act Row := do
  statement
  tryRow
  let row := e.row (← freshId)
  needWritable isWritable
  match row.settled? with
  | some settled => setBook ((← get).book.addRow settled)
  | none => fail (.fault .rowRefused)
  return row

def addStamped (policy : Option Policy) (isWritable : Bool) (e : Entry) : Act Row := do
  let row ← stampRow policy (← addRow isWritable e) .create
  match row.settled? with
  | some settled =>
    setBook ((← get).book.putRow settled)
    return settled
  | none => fail (.fault .rowRefused)

/-- writes all rows or none -/
def addBatch (policy : Option Policy) (isWritable : Bool) (entries : List Entry) :
    Act (List Row) :=
  onFailure (transact (entries.mapM (addStamped policy isWritable))) fun
    | .fault .rowRefused => do
      count .failedBatches 1
      fail (.batchFailed entries.length)
    | e => fail e

/-! ## the operation -/

/-- the plan of a request for several periods; its group name is used up -/
def planFor (e : NewEntry) (amount : Decimal) (count : Nat) : Act (Option Plan) := do
  if count ≤ 1 then return none
  let s ← get
  let plan ← ofResult (Plan.of s.settings.planRules (.decimal amount) (.int count) e.mode e.date
    e.givenName (nextGroup s))
  useGroup
  return some plan

def planFields (request : Option String) (account : String) (p : Plan) : Fields :=
  [("request_id", .ofText? request), ("account_id", .text account),
    ("step", .text "installments_created"), ("installment_group", .text p.group),
    ("installment_mode", .text p.mode.text), ("installments_total", .int p.lines.length)]

def recordPlan (request : Option String) (account : String) (p : Plan) : Act Unit := do
  count (.plans p.mode) 1
  count .planLines p.lines.length
  note .info "Installments created" (planFields request account p)

/-- writes the entries that are asked for -/
def create (e : NewEntry) : Act (List Entry) := do
  let account ← require ((← book).account? e.account) (.notFound (.account e.account))
  let amount ← ofResult (e.amount.signed e.nature)
  let n ← ofResult (readCount (← get).settings.maxInstallments e.count)
  let policy ← ofResult account.policy
  let plan ← planFor e amount n
  let rows ← addBatch policy e.isWritable (candidates (e.base account amount) plan)
  if let some p := plan then recordPlan e.request account.id p
  rows.mapM fun row => ofFault row.entry

end Ledger

end Billfold
