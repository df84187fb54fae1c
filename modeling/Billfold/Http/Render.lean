import Billfold.Ledger.Inquiry
import Billfold.Ledger.Resolve

/-!
# Answers of the service

* `renderInfo?`    an entry with its payment date; none if its suggestion or tag cannot be shown
* `renderGroup?`   a plan with the sum of its amounts
* `renderCycle`    the dates of a billing cycle
* `renderMerged`   the two ids of a merge
-/

namespace Billfold.Http

def dateJson (d : Option Date) : Json := .ofText? (d.map Date.text)

/-- a suggestion; its id must be whole, its reason a text and its amount a number -/
def renderSuggestion? (s : Suggestion) : Option Json :=
  let reasonShows := match s.reason with
    | .null => true
    | .text _ => true
    | _ => false
  if s.hasWholeId && reasonShows && s.postedAmount.all Decimal.isFinite then
    some (.object [
      ("entry_id", .text s.entryId),
      ("reason", s.reason),
      ("confidence", .text s.confidence.text),
      ("posted_amount", .ofText? (s.postedAmount.map Decimal.text)),
      ("dismissed", .bool s.dismissed),
      ("low_confidence", .bool s.isLow)])
  else
    none

/-- a tag, if its group can be written -/
def renderTag? (t : Tag) : Option Json :=
  t.group.map fun group => .object [
    ("group_id", .text group),
    ("index", .int t.index),
    ("total", .int t.total),
    ("mode", .text t.mode.text)]

/-- what may be missing, and is null then -/
def orNull? {α : Type} (render? : α → Option Json) : Option α → Option Json
  | some a => render? a
  | none => some .null

def renderInfo? (info : Info) : Option Json := do
  let e := info.entry
  let suggestion ← orNull? renderSuggestion? e.suggestion
  let tag ← orNull? renderTag? e.tag
  return .object [
    ("id", .ofText? e.id),
    ("account_id", .text e.account),
    ("name", .text e.name),
    ("date", .text e.date.text),
    ("amount", .text e.amount.text),
    ("currency", .text e.currency),
    ("deferred_to_next_cycle", .bool e.deferred),
    ("billing_cycle_month", dateJson e.month),
    ("billing_cycle_locked_at", .ofText? (e.lockedAt.map Instant.text)),
    ("payment_due_date", dateJson info.due),
    ("deferred_badge", .bool info.badge),
    ("cycle_locked", .bool e.isLocked),
    ("pending", .bool e.isPending),
    ("duplicate_suggestion", suggestion),
    ("installment", tag)]

def renderGroup? (group : String) (total : Decimal) (infos : List Info) : Option Json := do
  let entries ← infos.mapM renderInfo?
  return .object [
    ("group_id", .text group), ("total_amount", .text total.text), ("transactions", .list entries)]

def renderCycle (account : String) (reference : Date) (cycle : Option Cycle)
    (window : Option Window) : Json :=
  .object [
    ("account_id", .text account),
    ("reference_date", .text reference.text),
    ("cutoff_date", dateJson (cycle.map Cycle.cutoff)),
    ("payment_due_date", dateJson (cycle.map Cycle.due)),
    ("cycle_start", dateJson (window.map Window.first)),
    ("cycle_end", dateJson (window.map Window.last))]

def renderMerged (m : Merged) : Json :=
  .object [
    ("merged", .bool true), ("pending_id", .ofText? m.pending), ("posted_id", .text m.posted)]

def renderDetail (text : String) : Json := .object [("detail", .text text)]

end Billfold.Http
