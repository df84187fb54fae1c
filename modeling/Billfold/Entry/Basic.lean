import Billfold.Card.Stamp
import Billfold.Entry.Metadata
import Billfold.Entry.Suggestion
import Billfold.Entry.Tag
import Billfold.Text.Blank

/-!
# Entries

A movement of money as the ledger sees it: its columns, and what its metadata says about a
duplicate and about a plan, taken out of the map.

* `Entry`              the movement
* `Entry.charge`       what of it decides its bill
* `Entry.readExtra`    suggestion, tag and the remaining keys of a metadata map
* `Entry.writeExtra`   the map with suggestion and tag put back
* `isPending`          whether a provider marks the movement as pending
-/

namespace Billfold

structure Entry where
  /-- none until the movement is numbered -/
  id : Option String
  account : String
  name : String
  date : Date
  amount : Decimal
  currency : String
  deferred : Bool
  /-- a day of the stamped month -/
  month : Option Date
  lockedAt : Option Instant
  suggestion : Option Suggestion
  tag : Option Tag
  /-- the other keys of the metadata -/
  extra : Fields

/-! ## pending movements -/

/-- the providers whose metadata tell pending movements -/
def pendingProviders : List String := ["simplefin", "plaid"]

def yesWords : List String := ["true", "1", "t", "yes"]

/-- whether a provider's value means yes -/
def meansYes : Json → Bool
  | .text s =>
    yesWords.contains (String.ofList ((Text.trim Text.isBlank s.toList).map Char.toLower))
  -- a text like any other, and none of those that mean yes
  | .unpaired => false
  | v => v.isTruthy

/-- whether a provider's metadata mark the movement as pending -/
def marksPending : Json → Bool
  | .object fields => meansYes (Fields.get "pending" fields)
  | _ => false

def isPending (extra : Fields) : Bool :=
  pendingProviders.any fun provider => marksPending (extra.get provider)

/-! ## metadata -/

namespace Entry

/-- what a metadata map says -/
structure Extra where
  suggestion : Option Suggestion
  tag : Option Tag
  rest : Fields

/-- the keys that are not kept in the rest -/
def typedKeys : List String := Suggestion.key :: Tag.keys

def readExtra (v : Json) : Except Fault Extra := do
  let metadata ← Metadata.ofValue v
  return {
    suggestion := Suggestion.read metadata
    tag := ← Tag.read metadata
    rest := typedKeys.foldl (fun rest key => rest.erase key) metadata
  }

def setAll (fields : Fields) (onto : Fields) : Fields :=
  fields.foldl (fun fs f => fs.set f.1 f.2) onto

/-- the metadata map of an entry -/
def writeExtra (e : Entry) : Fields :=
  let withSuggestion := match e.suggestion with
    | some s => e.extra.set Suggestion.key (.object s.stored)
    | none => e.extra
  match e.tag with
  | some tag => setAll tag.stored withSuggestion
  | none => withSuggestion

def charge (e : Entry) : Charge := ⟨e.date, e.deferred, e.month⟩

def isLocked (e : Entry) : Bool := e.month.isSome

def isPending (e : Entry) : Bool := Billfold.isPending e.extra

end Entry

end Billfold
