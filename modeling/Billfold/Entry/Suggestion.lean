import Billfold.Decimal.Text
import Billfold.Json.Shown

/-!
# Duplicate suggestions

A matcher may suggest that a pending entry is the same movement as a posted one.  The suggestion
lives in the entry's metadata; what the matcher stored there is kept whole.

* `Confidence`           how sure the matcher is
* `Suggestion`           the suggestion of one entry
* `Suggestion.read`      the suggestion in a metadata map, if there is one
* `Suggestion.stored`    what is written back
-/

namespace Billfold

inductive Confidence where
  | low
  | medium
  | high
deriving DecidableEq, Repr

namespace Confidence

def text : Confidence → String
  | low => "low"
  | medium => "medium"
  | high => "high"

def ofText? : String → Option Confidence
  | "low" => some low
  | "medium" => some medium
  | "high" => some high
  | _ => none

/-- the confidence that a value names; anything else is medium -/
def read : Json → Confidence
  | .text s => (ofText? s).getD medium
  | _ => medium

theorem read_text (c : Confidence) : read (.text c.text) = c := by cases c <;> rfl

end Confidence

/-- a posted entry suggested for a pending one -/
structure Suggestion where
  /-- the id of the posted entry, empty if the matcher gave none -/
  entryId : String
  reason : Json
  confidence : Confidence
  postedAmount : Option Decimal
  dismissed : Bool
  /-- what the matcher stored; empty for a suggestion made here -/
  raw : Fields

namespace Suggestion

def key : String := "potential_posted_match"

/-- the text of an id, empty for none -/
def idOf : Json → String
  | .null => ""
  | v => v.words

/-- an amount that cannot be read counts as none -/
def amountOf : Json → Option Decimal
  | .null => none
  | v => Decimal.ofText? v.words

/-- only the value `true` dismisses -/
def isDismissed : Json → Bool
  | .bool b => b
  | _ => false

def ofFields (raw : Fields) : Suggestion where
  entryId := idOf (raw.get "entry_id")
  reason := raw.get "reason"
  confidence := .read (raw.get "confidence")
  postedAmount := amountOf (raw.get "posted_amount")
  dismissed := isDismissed (raw.get "dismissed")
  raw := raw

def read (metadata : Fields) : Option Suggestion :=
  match metadata.get key with
  | .object [] => none
  | .object raw => some (ofFields raw)
  | _ => none

/-- the suggestion in a value, which only an object has -/
def ofValue : Json → Option Suggestion
  | .object metadata => read metadata
  | _ => none

/-- the fields of a suggestion that no matcher stored -/
def fields (s : Suggestion) : Fields :=
  [("entry_id", .text s.entryId), ("reason", s.reason), ("confidence", .text s.confidence.text)] ++
    (s.postedAmount.map fun x => ("posted_amount", .text x.text)).toList

/-- what is written back: the matcher's own fields, or else those of the suggestion, with the
current dismissal -/
def stored (s : Suggestion) : Fields :=
  (if s.raw.isEmpty then s.fields else s.raw).set "dismissed" (.bool s.dismissed)

def isLow (s : Suggestion) : Bool := s.confidence = .low

/-- whether the id can be written; only a matcher can have stored one that cannot -/
def hasWholeId (s : Suggestion) : Bool := (s.raw.get "entry_id").words?.isSome

end Suggestion

end Billfold
