import Billfold.Proofs.Entry.Tag
import Billfold.Proofs.Ledger.Create

/-!
# The rows of a new plan, one by one

* `Ledger.Period`         the row of a period: its number, account, flag, day and tag
* `Drafted.periods`       a plan is written as one row for each of its periods, in their order
* `Drafted.isPlan`, `Drafted.mode`   what is asked for in several periods is a plan, in its mode
-/

namespace Billfold

theorem Row.carries_of_kept {c : Entry} {id : String} {stamp : Option Stamp} {r : Row} {tag : Tag}
    (tagged : c.tag = some tag) (kept : ((c.row id).stampedBy stamp).settled? = some r) :
    r.Carries tag :=
  ⟨c.writeExtra, Row.extra_of_kept kept, fun _ hf => Entry.get?_writeExtra_of_mem tagged hf⟩

namespace Ledger

/-- the row that is written for the period with the zero-based index `i` of a plan for `n` -/
structure Period (s : Session) (e : NewEntry) (mode : Mode) (n i : Nat) (r : Row) : Prop where
  id : r.id = numbered (s.usedIds + i + 1)
  account : r.account = e.account
  deferred : r.deferred = e.deferred
  date : e.date.addMonths i = .ok r.date
  tag : r.Carries ⟨Act.nextGroup s, i + 1, n, mode⟩

variable {s : Session} {e : NewEntry} {rows : List Row} {p : Plan} {plan : Option Plan} {n : Nat}

theorem Drafted.isPlan (h : Drafted s e plan rows)
    (count : readCount s.settings.maxInstallments e.count = .ok n) (several : 2 ≤ n) :
    ∃ p, plan = some p := by
  obtain ⟨_, _, _, m, -, -, -, count', planned, -⟩ := h.written
  rw [count] at count'
  cases count'
  cases planned with
  | single one => omega
  | several => exact ⟨_, rfl⟩

theorem Drafted.mode (h : Drafted s e (some p) rows) :
    Mode.read s.settings.defaultMode e.mode = .ok p.mode := by
  obtain ⟨_, _, _, _, -, -, -, -, planned, -⟩ := h.written
  cases planned with
  | several more made => exact (Plan.of_ok made).2.1

theorem Drafted.periods (h : Drafted s e (some p) rows) :
    ∃ n, readCount s.settings.maxInstallments e.count = .ok n ∧ 1 < n ∧ rows.length = n ∧
      ∀ i r, rows[i]? = some r → Period s e p.mode n i r := by
  obtain ⟨account, policy, amount, n, found, -, -, count, planned, written⟩ := h.written
  have length := planned.length_candidates count (e.base account amount)
  cases planned with
  | several more made =>
    refine ⟨n, count, more, written.length_eq.trans length, fun i r hr => ?_⟩
    obtain ⟨c, stamp, place, -, kept⟩ := written.of_getElem? hr
    rw [candidates, List.getElem?_map, Option.map_eq_some_iff] at place
    obtain ⟨line, place, rfl⟩ := place
    obtain ⟨index, date⟩ := Plan.line_of made place
    have settles := Row.settles_of_settled? kept
    have total : p.lines.length = n := (List.length_map _).symm.trans length
    have tag : p.tag line = ⟨Act.nextGroup s, i + 1, n, p.mode⟩ := by
      unfold Plan.tag
      rw [(Plan.of_ok made).1, index, total]
      rfl
    refine ⟨id_of_kept kept, ?_, ?_, ?_, tag ▸ Row.carries_of_kept rfl kept⟩
    · rw [settles.account, Row.account_stampedBy, ← Book.id_of_account? found]
      rfl
    · rw [settles.deferred, Row.deferred_stampedBy]
      rfl
    · rw [settles.date, Row.date_stampedBy]
      exact date

end Ledger

end Billfold
