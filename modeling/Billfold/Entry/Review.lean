import Billfold.Entry.Resolve

/-!
# Reviewing one entry

The suggestion of one entry worked on by itself, apart from any book: the entries that exist are
given by their ids.

* `Review`         the entry, until a merge takes it
* `ReviewStep`     what is done
* `Review.step`    the result of a step, and the entry after it
* `Review.run`     the findings of a list of steps
-/

namespace Billfold

inductive ReviewStep where
  | dismiss
  | clear
  | attach (s : Suggestion)
  /-- the suggestion is read anew from what would be written -/
  | reload
  | merge

/-- the entry under review, and the ids of the entries that exist -/
structure Review where
  entry : Option Entry
  ids : List String

/-- what a step gives, and how the entry stands after it -/
structure Finding where
  result : Except Error (Option Merged)
  lookedUp : List String
  deleted : List (Option String)
  suggestion : Option Suggestion
  active : Bool

namespace Review

def stepOn (ids : List String) (e : Entry) :
    ReviewStep → Except Error (Option Merged × Option Entry)
  | .dismiss => do return (none, some (← e.dismiss))
  | .clear => .ok (none, some e.clear)
  | .attach s => .ok (none, some (e.attach s))
  | .reload => .ok (none, some { e with suggestion := Suggestion.read e.writeExtra })
  | .merge => do return (some (← e.merge fun id => ids.contains id), none)

def stepOnNothing : ReviewStep → Error
  | .merge => .notFound .noEntry
  | .dismiss => .fault .noProperty
  | .reload => .fault .noProperty
  | .clear => .fault .badKind
  | .attach _ => .fault .badKind

def step (r : Review) (s : ReviewStep) : Except Error (Option Merged × Option Entry) :=
  match r.entry with
  | some e => stepOn r.ids e s
  | none => .error (stepOnNothing s)

def lookedUp (r : Review) : ReviewStep → List String
  | .merge => ((r.entry.bind Entry.lookedUp).map fun id => [id]).getD []
  | _ => []

def take (r : Review) (s : ReviewStep) : Finding × Review :=
  let (result, entry) : Except Error (Option Merged) × Option Entry := match r.step s with
    | .ok (merged, entry) => (.ok merged, entry)
    | .error e => (.error e, r.entry)
  let deleted := match result with
    | .ok (some merged) => [merged.pending]
    | _ => []
  ({ result, lookedUp := r.lookedUp s, deleted, suggestion := entry.bind Entry.suggestion,
     active := entry.any Entry.hasActive }, { r with entry })

def run (r : Review) : List ReviewStep → List Finding
  | [] => []
  | s :: rest =>
    let (finding, next) := r.take s
    finding :: next.run rest

end Review

end Billfold
