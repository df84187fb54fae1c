import Billfold.Entry.Basic
import Billfold.Error

/-!
# Resolving duplicates

What can be done with a suggestion: attach it, clear it, dismiss it, or merge the pending entry
into the posted one.

* `hasActive`     whether there is a suggestion that is not dismissed
* `attach`, `clear`, `dismiss`   the entry with another suggestion, or with its own marked
* `merge`         the ids of the entry that goes and of the one that stays
* `canLookUp`     whether the store can be asked for what a merge looks up
-/

namespace Billfold

/-- the two ids of a merge: the entry that goes and the one that stays -/
structure Merged where
  pending : Option String
  posted : String
deriving DecidableEq, Repr

namespace Entry

def hasActive (e : Entry) : Bool :=
  match e.suggestion with
  | some s => !s.dismissed
  | none => false

def attach (e : Entry) (s : Suggestion) : Entry := { e with suggestion := some s }

def clear (e : Entry) : Entry := { e with suggestion := none }

def dismiss (e : Entry) : Except Error Entry :=
  match e.suggestion with
  | none => .error (.notFound (.suggestion e.id))
  | some s => .ok { e with suggestion := some { s with dismissed := true } }

/-- the id of the posted entry that an active suggestion names, which may be empty -/
def activeTarget (e : Entry) : Except Error String :=
  match e.suggestion with
  | some s => if s.dismissed then .error (.notFound (.activeSuggestion e.id)) else .ok s.entryId
  | none => .error (.notFound (.activeSuggestion e.id))

/-- what merging keeps and drops; `isPosted` tells whether an id is an entry's -/
def merge (e : Entry) (isPosted : String → Bool) : Except Error Merged := do
  let posted ← e.activeTarget
  if !posted.isEmpty && isPosted posted then return ⟨e.id, posted⟩
  else .error (.notFound (.posted posted))

def canLookUp (e : Entry) : Bool :=
  match e.suggestion with
  | some s => s.dismissed || s.hasWholeId
  | none => true

def lookedUp (e : Entry) : Option String :=
  match e.activeTarget with
  | .ok posted => if posted.isEmpty then none else some posted
  | .error _ => none

theorem dismiss_dismiss {e d : Entry} (h : e.dismiss = .ok d) : d.dismiss = .ok d := by
  simp only [dismiss] at h
  split at h
  · cases h
  · cases h; rfl

end Entry

end Billfold
