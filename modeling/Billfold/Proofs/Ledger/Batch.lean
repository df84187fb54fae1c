import Billfold.Ledger.Create
import Billfold.Proofs.Ledger.Stamping

/-!
# A batch of new rows

New rows are written one after another, each with the next number and the stamp of its own day, and
the book has all of them in the end or none.

* `Written`        the rows that are written for entries
* `addStamped_ok`  one row more
* `addBatch_cases` a batch is written as a whole or not at all
* `within_addBatch` what writing stays within
-/

namespace Billfold

open Act

/-- the rows that are written for entries, with the numbers after `n`: each is stamped, if the
policy decides it, before it is kept -/
inductive Written (policy : Option Policy) (now : Instant) : Nat → List Entry → List Row → Prop
  | nil {n : Nat} : Written policy now n [] []
  | cons {n : Nat} {e : Entry} {es : List Entry} {stamp : Option Stamp} {row : Row}
      {rows : List Row} (decided : (e.row (numbered (n + 1))).stamp policy now = .ok stamp)
      (kept : ((e.row (numbered (n + 1))).stampedBy stamp).settled? = some row)
      (rest : Written policy now (n + 1) es rows) :
      Written policy now n (e :: es) (row :: rows)

theorem id_of_kept {e : Entry} {k : Nat} {stamp : Option Stamp} {row : Row}
    (kept : ((e.row (numbered k)).stampedBy stamp).settled? = some row) : row.id = numbered k := by
  rw [(Row.settles_of_settled? kept).id, Row.id_stampedBy]
  rfl

namespace Written

variable {policy : Option Policy} {now : Instant} {n : Nat} {es : List Entry} {rows : List Row}

theorem length_eq (h : Written policy now n es rows) : rows.length = es.length := by
  induction h with
  | nil => rfl
  | cons _ _ _ ih => rw [List.length_cons, List.length_cons, ih]

theorem numbered_addRows (h : Written policy now n es rows) {b : Book} (num : b.Numbered n) :
    (b.addRows rows).Numbered (n + rows.length) := by
  induction h generalizing b with
  | nil => rwa [Book.addRows_nil]
  | @cons n e es stamp row rows decided kept rest ih =>
    have := ih (num.addRow (id_of_kept kept) (Row.settles_of_settled? kept).isWall)
    rw [Book.addRows_cons, List.length_cons]
    rwa [Nat.add_right_comm] at this

theorem exists_of_mem (h : Written policy now n es rows) {row : Row} (hr : row ∈ rows) :
    ∃ e ∈ es, ∃ k stamp, n < k ∧ (e.row (numbered k)).stamp policy now = .ok stamp ∧
      ((e.row (numbered k)).stampedBy stamp).settled? = some row := by
  induction h with
  | nil => cases hr
  | @cons n e es stamp first rows decided kept rest ih =>
    rcases List.mem_cons.1 hr with rfl | hr
    · exact ⟨e, List.mem_cons_self, n + 1, stamp, Nat.lt_succ_self n, decided, kept⟩
    · obtain ⟨e', he, k, stamp', lt, decided', kept'⟩ := ih hr
      exact ⟨e', List.mem_cons_of_mem _ he, k, stamp', Nat.lt_of_succ_lt lt, decided', kept'⟩

theorem of_getElem? (h : Written policy now n es rows) {i : Nat} {row : Row}
    (hr : rows[i]? = some row) :
    ∃ e stamp, es[i]? = some e ∧ (e.row (numbered (n + i + 1))).stamp policy now = .ok stamp ∧
      ((e.row (numbered (n + i + 1))).stampedBy stamp).settled? = some row := by
  induction h generalizing i with
  | nil => cases hr
  | @cons n e es stamp first rows decided kept rest ih =>
    cases i with
    | zero => cases hr; exact ⟨e, stamp, rfl, decided, kept⟩
    | succ i =>
      rw [show n + (i + 1) + 1 = n + 1 + i + 1 from by omega]
      exact ih hr

theorem amounts (h : Written policy now n es rows) :
    (rows.map fun r => some r.amount) = es.map fun e => settle? e.amount := by
  induction h with
  | nil => rfl
  | @cons n e es stamp row rows decided kept rest ih =>
    have first : settle? e.amount = some row.amount := by
      unfold Row.settled? at kept
      rw [Row.amount_stampedBy] at kept
      obtain ⟨amount, settled, rfl⟩ := Option.map_eq_some_iff.1 kept
      exact settled
    rw [List.map_cons, List.map_cons, ih, first]

end Written

namespace Ledger

variable {s t : Session} {policy : Option Policy} {ok : Bool}

/-! ## one row -/

theorem tryRow_ok {a : Unit} (h : tryRow.exec s = (.ok a, t)) :
    ∃ refusing, { s with refusing } = t := by
  unfold tryRow at h
  rw [exec_bind, exec_get] at h
  dsimp only at h
  split at h
  · cases h; exact ⟨_, rfl⟩
  · cases h; exact ⟨_, rfl⟩
  · cases h
  · cases h; exact ⟨_, rfl⟩

theorem addRow_ok {e : Entry} {row : Row} (h : (addRow ok e).exec s = (.ok row, t)) :
    row = e.row (numbered (s.usedIds + 1)) ∧ ∃ refusing settled, row.settled? = some settled ∧
      { s with refusing, usedIds := s.usedIds + 1, book := s.book.addRow settled } = t := by
  unfold addRow at h
  obtain ⟨_, _, asked, run⟩ := exec_bind_ok h
  obtain ⟨-, rfl⟩ := exec_statement_ok asked
  obtain ⟨_, _, tried, run⟩ := exec_bind_ok run
  obtain ⟨refusing, rfl⟩ := tryRow_ok tried
  obtain ⟨id, _, named, run⟩ := exec_bind_ok run
  rw [exec_freshId] at named
  cases named
  obtain ⟨_, _, written, run⟩ := exec_bind_ok run
  obtain ⟨-, rfl⟩ := exec_needWritable_ok written
  dsimp only at run
  split at run
  · next settled kept =>
    cases run
    exact ⟨rfl, refusing, settled, kept, rfl⟩
  · cases run

/-- a row is written and put in its own place once it is stamped -/
theorem addStamped_ok (num : s.book.Numbered s.usedIds) {e : Entry} {row : Row}
    (h : (addStamped policy ok e).exec s = (.ok row, t)) :
    ∃ stamp, (e.row (numbered (s.usedIds + 1))).stamp policy s.clock = .ok stamp ∧
      ((e.row (numbered (s.usedIds + 1))).stampedBy stamp).settled? = some row ∧
      t.book = s.book.addRow row ∧ t.usedIds = s.usedIds + 1 ∧ t.clock = s.clock := by
  unfold addStamped at h
  obtain ⟨first, _, added, run⟩ := exec_bind_ok h
  obtain ⟨rfl, refusing, settled, kept, rfl⟩ := addRow_ok added
  obtain ⟨stamped, u, stamping, run⟩ := exec_bind_ok run
  obtain ⟨quiet, ⟨_, -, e⟩ | ⟨stamp, decided, e⟩⟩ := stampRow_cases stamping
  · cases e
  cases e
  split at run
  · next last kept' =>
    cases run
    refine ⟨stamp, decided, kept', ?_, quiet.usedIds, quiet.clock⟩
    show u.book.putRow row = _
    rw [quiet.book]
    have id : settled.id = numbered (s.usedIds + 1) := (Row.settles_of_settled? kept).id
    exact num.putRow_addRow (id_of_kept kept') id
  · cases run

/-! ## a batch -/

theorem mapM_addStamped_ok {es : List Entry} (num : s.book.Numbered s.usedIds) {rows : List Row}
    (h : (es.mapM (addStamped policy ok)).exec s = (.ok rows, t)) :
    Written policy s.clock s.usedIds es rows ∧
      t.book = s.book.addRows rows ∧ t.usedIds = s.usedIds + rows.length := by
  -- a row is put in its own place by its id, so no row of before may have it: the numbers are kept
  -- apart from row to row
  induction es generalizing s rows with
  | nil =>
    rw [List.mapM_nil] at h
    cases h
    exact ⟨.nil, (Book.addRows_nil _).symm, rfl⟩
  | cons e es ih =>
    rw [List.mapM_cons] at h
    obtain ⟨row, u, added, run⟩ := exec_bind_ok h
    obtain ⟨more, v, others, run⟩ := exec_bind_ok run
    cases run
    obtain ⟨stamp, decided, kept, put, used, clock⟩ := addStamped_ok num added
    have num' : u.book.Numbered u.usedIds := by
      rw [put, used]
      exact num.addRow (id_of_kept kept) (Row.settles_of_settled? kept).isWall
    obtain ⟨rest, put', used'⟩ := ih num' others
    rw [clock, used] at rest
    refine ⟨.cons decided kept rest, ?_, ?_⟩
    · rw [put', put, Book.addRows_cons]
    · rw [used', used, List.length_cons]
      omega

theorem addBatch_cases {es : List Entry} (num : s.book.Numbered s.usedIds)
    {x : Except Error (List Row)} (h : (addBatch policy ok es).exec s = (x, t)) :
    (∃ e, x = .error e ∧ t.book = s.book) ∨
      ∃ rows, x = .ok rows ∧ Written policy s.clock s.usedIds es rows ∧
        t.book = s.book.addRows rows ∧ t.usedIds = s.usedIds + rows.length := by
  unfold addBatch at h
  rcases exec_onFailure_cases h with ⟨rows, rfl, done⟩ | ⟨e, u, failed, handled⟩
  · exact .inr ⟨rows, rfl, mapM_addStamped_ok num (exec_transact_ok done)⟩
  · have kept := exec_transact_error failed
    split at handled
    · obtain ⟨v, counted, quiet⟩ := exec_count .failedBatches 1 u
      rw [exec_bind, counted] at handled
      cases handled
      exact .inl ⟨_, rfl, quiet.book.trans kept⟩
    · cases handled
      exact .inl ⟨_, rfl, kept⟩

/-! ### what a batch stays within -/

section

variable {R : Session → Session → Prop} [Session.Backdrop R]

theorem within_tryRow : Within R tryRow := by
  refine within_bind within_get fun u => ?_
  split
  · exact within_pure _
  · exact within_pure _
  · exact within_bind (within_modify fun s => Session.Backdrop.refusing s _) fun _ => within_fail _
  · exact within_modify fun s => Session.Backdrop.refusing s _

theorem within_addRow (ok : Bool) (e : Entry) : Within R (addRow ok e) := by
  refine within_bind within_statement fun _ => within_bind within_tryRow fun _ =>
    within_bind within_freshId fun _ => within_bind (within_needWritable _) fun _ => ?_
  dsimp only
  split
  · exact within_bind within_get fun _ => within_bind (within_setBook _) fun _ => within_pure _
  · exact within_bind (within_fail _) fun _ => within_pure _

variable (skips : Session.Allows R (.stamps .skipped)) (stamps : Session.Allows R (.stamps .create))
include skips stamps

theorem within_addStamped (policy : Option Policy) (ok : Bool) (e : Entry) :
    Within R (addStamped policy ok e) := by
  refine within_bind (within_addRow ok e) fun _ =>
    within_bind (within_stampRow skips stamps _ _) fun _ => ?_
  split
  · exact within_bind within_get fun _ => within_bind (within_setBook _) fun _ => within_pure _
  · exact within_fail _

theorem within_addBatch (fails : Session.Allows R .failedBatches) (policy : Option Policy)
    (ok : Bool) (es : List Entry) : Within R (addBatch policy ok es) := by
  refine within_onFailure
    (within_transact (within_mapM (within_addStamped skips stamps _ _) _)) fun e => ?_
  split
  · exact within_bind (within_count fails 1) fun _ => within_fail _
  · exact within_fail _

end

end Ledger

end Billfold
