import Billfold.Fault

/-!
# Refusals and other errors

* `Refusal`    why an input is refused before anything changes
* `Missing`    what was asked for and is not there
* `Error`      a refusal, a missing thing, a failed batch, or a fault below the ledger
* `message`    the one place where each gets its words
-/

namespace Billfold

/-- why an input is refused; values are carried as they were given -/
inductive Refusal where
  | dueDay (given : Int)
  | cutoffDays (given : Int)
  | noAmount
  | badAmount (shown : String)
  | badNature
  | unknownMode (shown : String)
  | badCount (shown : String)
  | countLimit (limit : Int)
deriving DecidableEq, Repr

inductive Missing where
  | account (id : String)
  | entry (id : String)
  /-- an entry that was looked up beforehand -/
  | noEntry
  | suggestion (entry : Option String)
  | activeSuggestion (entry : Option String)
  /-- the posted entry of a suggestion; the empty text if the suggestion names none -/
  | posted (id : String)
  | plan (group : String)
deriving DecidableEq, Repr

/-- how an operation fails -/
inductive Error where
  | refused (why : Refusal)
  | notFound (what : Missing)
  /-- a batch of new rows that the store refused; none of them is kept -/
  | batchFailed (rows : Nat)
  | fault (cause : Fault)
deriving DecidableEq, Repr

instance : Coe Fault Error := ⟨Error.fault⟩

/-- a result that only a fault can prevent -/
def Except.liftFault {α : Type} : Except Fault α → Except Error α
  | .ok a => .ok a
  | .error f => .error (.fault f)

namespace Refusal

def message : Refusal → String
  | dueDay given => s!"Due day must be between 1 and 31, got {given}"
  | cutoffDays given => s!"Cutoff days before due cannot be negative, got {given}"
  | noAmount => "Amount is required"
  | badAmount shown => s!"Invalid amount: {shown}"
  | badNature => "Invalid transaction type"
  | unknownMode shown => s!"Unknown installment mode: {shown}"
  | badCount shown => s!"Invalid installment count: {shown}"
  | countLimit limit => s!"Installments must be between 1 and {limit}"

end Refusal

namespace Missing

def shownId (id : Option String) : String := id.getD "None"

def message : Missing → String
  | account id => s!"Account {id} not found"
  | entry id => s!"Transaction {id} not found"
  | noEntry => "Transaction not found"
  | suggestion id => s!"Transaction {shownId id} has no duplicate suggestion"
  | activeSuggestion id => s!"Transaction {shownId id} has no active duplicate suggestion"
  | posted id => s!"Posted entry {if id.isEmpty then missing else id} not found"
  | plan group => s!"Installment group {group} not found"
where
  missing : String := "<missing>"

end Missing

namespace Error

/-- the words of an error; a fault has none -/
def message? : Error → Option String
  | refused why => some why.message
  | notFound what => some what.message
  | batchFailed rows => some s!"Failed to create {rows} transaction(s)"
  | fault _ => none

end Error

end Billfold
