import Billfold.Book.Basic
import Billfold.Ledger.Counter
import Billfold.Ledger.Log
import Billfold.Ledger.Settings

/-!
# Sessions

The state between operations, and the operations' own language.

* `Session`      the book, the numbers already used, the clock, the counters and the log
* `Act`          an operation; what it did to the session stays even if it fails
* `transact`     an operation after whose failure the book is as before
* `statement`    the store is asked for something, which fails while it is down
* `needWritable` the store is given texts
* `freshId`, `freshRequest`   numbered names, each used once
* `nextGroup`, `useGroup`     the name that the next plan gets, and its use
* `count`, `note`   counting and logging
-/

namespace Billfold

/-- the state between operations -/
structure Session where
  settings : Settings
  /-- the least level that is logged -/
  level : Level
  /-- whether the store answers -/
  storeUp : Bool
  clock : Instant
  book : Book
  usedIds : Nat
  usedGroups : Nat
  usedRequests : Nat
  /-- how many rows from now the next one is refused -/
  refusing : Option Nat
  counters : Counters
  log : List LogEntry

def Session.fresh (settings : Settings) (level : Level) (storeUp : Bool) (clock : Instant) :
    Session where
  settings := settings
  level := level
  storeUp := storeUp
  clock := clock
  book := .empty
  usedIds := 0
  usedGroups := 0
  usedRequests := 0
  refusing := none
  counters := []
  log := []

abbrev Act (α : Type) := ExceptT Error (StateM Session) α

namespace Act

variable {α : Type}

/-- runs the operation; gives its result and the session after it -/
def exec (act : Act α) (s : Session) : Except Error α × Session := act s

/-- a result that needs no session -/
def ofResult (result : Except Error α) : Act α := fun s => (result, s)

def ofFault (result : Except Fault α) : Act α := ofResult (Except.liftFault result)

def fail (e : Error) : Act α := ofResult (.error e)

/-- a value that must be there -/
def require (value : Option α) (missing : Error) : Act α :=
  match value with
  | some a => pure a
  | none => fail missing

def transact (act : Act α) : Act α := fun s =>
  match act s with
  | (.ok a, t) => (.ok a, t)
  | (.error e, t) => (.error e, { t with book := s.book })

/-- an operation with another way to fail -/
def onFailure (act : Act α) (handle : Error → Act α) : Act α := fun s =>
  match act s with
  | (.ok a, t) => (.ok a, t)
  | (.error e, t) => handle e t

/-- an operation whose failure is a result -/
def attempt (act : Act α) : Act (Except Error α) := fun s =>
  match act s with
  | (result, t) => (.ok result, t)

def statement : Act Unit := do
  if !(← get).storeUp then fail (.fault .storeDown)

/-- the store is given texts, of which it takes whole characters only -/
def needWritable (isWritable : Bool) : Act Unit := do
  if !isWritable then fail (.fault .unwritableText)

/-- the book, as the store shows it -/
def book : Act Book := do
  statement
  return (← get).book

def setBook (b : Book) : Act Unit := modify fun s => { s with book := b }

/-! ## numbered names -/

def freshId : Act String := do
  let n := (← get).usedIds + 1
  modify fun s => { s with usedIds := n }
  return s!"id-{n}"

def nextGroup (s : Session) : String := s!"group-{s.usedGroups + 1}"

def useGroup : Act Unit := modify fun s => { s with usedGroups := s.usedGroups + 1 }

def freshRequest : Act String := do
  let n := (← get).usedRequests + 1
  modify fun s => { s with usedRequests := n }
  return s!"req-{n}"

/-! ## counting and logging -/

def count (c : Counter) (n : Nat) : Act Unit :=
  modify fun s => { s with counters := s.counters.add c n }

/-- an entry for the log, unless its level is too low -/
def note (level : Level) (message : String) (fields : Fields) : Act Unit :=
  modify fun s =>
    if level.reaches s.level then { s with log := s.log ++ [⟨level, message, fields⟩] } else s

/-! ## one operation after another -/

theorem exec_bind {β : Type} (act : Act α) (next : α → Act β) (s : Session) :
    (act >>= next).exec s =
      match act.exec s with
      | (.ok a, t) => (next a).exec t
      | (.error e, t) => (.error e, t) := by
  show (match act s with
    | (result, t) => ExceptT.bindCont next result t) = match act s with
      | (.ok a, t) => next a t
      | (.error e, t) => (.error e, t)
  match act s with
  | (.ok _, _) => rfl
  | (.error _, _) => rfl

end Act

def Json.ofText? (s : Option String) : Json := (s.map Json.text).getD .null

end Billfold
