import Billfold.Http.Serve
import Billfold.Ledger.Upkeep

/-!
# Steps of a session

* `Step`          an operation with its operands
* `Reply`         what an operation gives
* `Step.act`      the operation of a step
* `Session.take`  a session after a step, with the step's result and what it logged
* `Session.run`   all results of a list of steps
-/

namespace Billfold

inductive Step where
  | openAccount (account : NewAccount)
  | editAccount (id : String) (changes : List AccountChange)
  | editRow (id : String) (changes : List RowChange)
  | deleteRow (id : String)
  | create (entry : NewEntry)
  | update (id : String) (changes : Changes)
  | paymentInfo (id : String)
  | group (account group : String)
  | billingCycle (account : String) (reference : Date)
  | attach (id : String) (suggestion : Suggestion)
  | dismiss (id : String) (request : Option String)
  | clear (id : String) (request : Option String)
  | merge (id : String) (request : Option String)
  | setClock (now : Instant)
  | refuseRow (n : Nat)
  | listRows
  | metrics
  | serve (request : Http.Request)

inductive Reply where
  | done
  | account (a : Account)
  | entry (e : Entry)
  | entries (es : List Entry)
  | info (i : Info)
  | infos (is : List Info)
  | cycle (cycle : Option Cycle) (window : Option Window)
  | merged (m : Merged)
  | rows (rs : List Row)
  | counters (cs : Counters)
  | response (r : Http.Response)

/-- a step's result and what it logged -/
structure Outcome where
  result : Except Error Reply
  log : List LogEntry

def Step.act : Step → Act Reply
  | openAccount account => Reply.account <$> Ledger.openAccount account
  | editAccount id changes => (fun _ => Reply.done) <$> Ledger.editAccount id changes
  | editRow id changes => (fun _ => Reply.done) <$> Ledger.editRow id changes
  | deleteRow id => (fun _ => Reply.done) <$> Ledger.deleteRow id
  | create entry => Reply.entries <$> Ledger.create entry
  | update id changes => Reply.entry <$> Ledger.update id changes
  | paymentInfo id => Reply.info <$> Ledger.paymentInfo id
  | group account name => Reply.infos <$> Ledger.group account name
  | billingCycle account reference => do
    let (cycle, window) ← Ledger.billingCycle account reference
    return .cycle cycle window
  | attach id suggestion => Reply.entry <$> Ledger.attach id suggestion
  | dismiss id request => Reply.entry <$> Ledger.dismiss id request
  | clear id request => Reply.entry <$> Ledger.clear id request
  | merge id request => Reply.merged <$> Ledger.merge id request
  | setClock now => (fun _ => Reply.done) <$> Ledger.setClock now
  | refuseRow n => (fun _ => Reply.done) <$> Ledger.refuseRow n
  | listRows => Reply.rows <$> Ledger.allRows
  | metrics => do return .counters (← get).counters
  | serve request => Reply.response <$> Http.serve request

namespace Session

def take (s : Session) (step : Step) : Outcome × Session :=
  match step.act.exec { s with log := [] } with
  | (result, t) => (⟨result, t.log⟩, t)

/-- all results of a list of steps, and the session at the end -/
def run (s : Session) : List Step → List Outcome × Session
  | [] => ([], s)
  | step :: rest =>
    let (outcome, t) := s.take step
    let (outcomes, u) := t.run rest
    (outcome :: outcomes, u)

end Session

end Billfold
