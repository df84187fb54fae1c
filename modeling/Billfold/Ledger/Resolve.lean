import Billfold.Entry.Resolve
import Billfold.Ledger.Update

/-!
# Resolving duplicates in the book

* `revise`      an entry's metadata written anew
* `attach`, `dismiss`, `clear`   the suggestion set, marked or dropped
* `merge`       the pending entry dropped in favour of the posted one
-/

namespace Billfold.Ledger

open Act

def revise (id : String) (change : Entry → Except Error Entry) : Act Entry :=
  transact do
    let row ← rowFor id
    let entry ← ofFault row.entry
    let changed ← ofResult (change entry)
    let _ ← keepRow { row with extra := .object changed.writeExtra } row
    return changed

def resolutionFields (request : Option String) (id : String) (how : Resolution)
    (posted : Option String) : Fields :=
  [("request_id", .ofText? request), ("transaction_id", .text id),
    ("step", .text "duplicate_resolution"), ("action", .text how.text),
    ("posted_entry_id", .ofText? posted)]

def recordResolution (request : Option String) (id : String) (how : Resolution)
    (posted : Option String) : Act Unit := do
  count (.resolutions how) 1
  note .info "Duplicate suggestion resolved" (resolutionFields request id how posted)

def attach (id : String) (s : Suggestion) : Act Entry := revise id fun e => .ok (e.attach s)

def dismiss (id : String) (request : Option String) : Act Entry := do
  let entry ← revise id Entry.dismiss
  recordResolution request id .dismiss none
  return entry

def clear (id : String) (request : Option String) : Act Entry := do
  let entry ← revise id fun e => .ok e.clear
  recordResolution request id .clear none
  return entry

/-- drops a pending entry whose posted one is in the book -/
def merge (id : String) (request : Option String) : Act Merged := do
  let merged ← transact do
    let b ← book
    let row ← require (b.row? id) (.notFound .noEntry)
    let entry ← ofFault row.entry
    needWritable entry.canLookUp
    let merged ← ofResult (entry.merge fun posted => (b.row? posted).isSome)
    setBook (b.dropRow row.id)
    return merged
  recordResolution request id .merge (some merged.posted)
  return merged

end Billfold.Ledger
