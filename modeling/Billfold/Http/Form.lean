import Billfold.Http.DateField
import Billfold.Json.Reader
import Billfold.Ledger.Create
import Billfold.Ledger.Update

/-!
# The forms of the service

* `Body`          what a request carries
* `Form`          what reading a form gives: a value, the errors of its fields, or nothing readable
* `readBody`      the value that a body's text writes
* `createForm`    the form of new entries
* `updateForm`    the form of changes
-/

namespace Billfold.Http

inductive Body where
  | absent
  | value (v : Json)
  | text (s : String)

inductive FormFault where
  | fields (errors : List FieldError)
  | unreadable

abbrev Form (α : Type) := Except FormFault α

def bodyError (place : List Json) (problem : Problem) (given : Json) : FormFault :=
  .fields [⟨.text "body" :: place, problem, given⟩]

/-- a byte order mark in front is no part of a text -/
def dropMark : List Char → List Char
  | c :: rest => if c = '\ufeff' then rest else c :: rest
  | [] => []

/-- the characters of a JSON text, whose zero bytes tell how it is written -/
def jsonChars? (s : String) : Option (List Char) :=
  let bytes := s.toUTF8.toList
  match Text.Encoding.of bytes with
  | .utf8 => some (dropMark s.toList)
  | encoding => encoding.chars? bytes

def readBody (s : String) : Form Json :=
  match jsonChars? s with
  | none => .error .unreadable
  | some chars =>
    match Json.read chars with
    | .ok v => .ok v
    | .error (.unexpected position) => .error (bodyError [.int position] .notJson (.object []))
    | .error _ => .error .unreadable

namespace Body

def isEmpty : Body → Bool
  | absent => true
  | value _ => false
  | text s => s.isEmpty

/-- whether a body can be sent -/
def isSendable : Body → Bool
  | value v => v.isPrintable
  | _ => true

/-- the value that a body carries; `isJson` tells that it is said to be JSON -/
def value? (isJson : Bool) (body : Body) : Form Json :=
  if body.isEmpty then .ok .null
  else if !isJson then .ok (.text "")
  else
    match body with
    | absent => .ok .null
    | value v => .ok v
    | text s => readBody s

def fields (isJson : Bool) (body : Body) : Form Fields := do
  match ← body.value? isJson with
  | .null => .error (bodyError [] .missing .null)
  | .object fields => return fields
  | v => .error (bodyError [] .notObject v)

end Body

/-! ## reading fields -/

/-- a field, checked; a missing one has the default or is an error -/
def field {α : Type} (fields : Fields) (name : String) (default : Option α)
    (check : Json → Except Problem α) : Except FieldError α :=
  let place := [.text "body", .text name]
  match fields.get? name with
  | some v => (check v).mapError fun problem => ⟨place, problem, v⟩
  | none =>
    match default with
    | some a => .ok a
    | none => .error ⟨place, .missing, .object fields⟩

def errorOf {α : Type} : Except FieldError α → List FieldError
  | .ok _ => []
  | .error e => [e]

/-- whether the named fields that are there are of whole characters -/
def areWhole (fields : Fields) (names : List String) : Bool :=
  names.all fun name => (fields.get name).isPrintable

structure CreateForm where
  account : String
  name : String
  date : Date
  amount : Decimal
  nature : String
  currency : Option String
  count : Int
  mode : Option Mode
  deferred : Bool
  /-- whether the name and the currency are of whole characters -/
  isWritable : Bool

def createForm (fields : Fields) : Form CreateForm :=
  let account := field fields "account_id" none readNonempty
  let name := field fields "name" (some "") readText
  let date := field fields "date" none readDate
  let amount := field fields "amount" none readDecimal
  let nature := field fields "nature" none readText
  let currency := field fields "currency" (some none) (optional readText)
  let count := field fields "installments_count" (some 1) readWhole
  let mode := field fields "installment_mode" (some none) (optional readMode)
  let deferred := field fields "deferred_to_next_cycle" (some false) readFlag
  match account, name, date, amount, nature, currency, count, mode, deferred with
  | .ok account, .ok name, .ok date, .ok amount, .ok nature, .ok currency, .ok count, .ok mode,
    .ok deferred =>
    let isWritable := areWhole fields ["name", "currency"]
    .ok { account, name, date, amount, nature, currency, count, mode, deferred, isWritable }
  | _, _, _, _, _, _, _, _, _ =>
    .error (.fields (errorOf account ++ errorOf name ++ errorOf date ++ errorOf amount ++
      errorOf nature ++ errorOf currency ++ errorOf count ++ errorOf mode ++ errorOf deferred))

def CreateForm.entry (f : CreateForm) (request : String) : NewEntry where
  account := f.account
  name := some f.name
  date := f.date
  amount := .decimal f.amount
  nature := .text f.nature
  currency := f.currency
  count := .int f.count
  mode := .ofText? (f.mode.map Mode.text)
  deferred := f.deferred
  request := some request
  isWritable := f.isWritable

def updateForm (fields : Fields) : Form Changes :=
  let name := field fields "name" (some none) (optional readText)
  let amount := field fields "amount" (some none) (optional readDecimal)
  let nature := field fields "nature" (some none) (optional readText)
  let deferred := field fields "deferred_to_next_cycle" (some none) (optional readFlag)
  match name, amount, nature, deferred with
  | .ok name, .ok amount, .ok nature, .ok deferred =>
    .ok {
      name
      amount := (amount.map Amount.decimal).getD (.value .null)
      deferred
      nature := .ofText? nature
      isWritable := areWhole fields ["name"]
    }
  | _, _, _, _ =>
    .error (.fields (errorOf name ++ errorOf amount ++ errorOf nature ++ errorOf deferred))

end Billfold.Http
