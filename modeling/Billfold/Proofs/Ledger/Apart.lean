import Billfold.Proofs.Entry.Rewritten

/-!
# Columns and metadata apart

Changes touch the columns of a row, and work on its suggestion touches its metadata.  Neither looks
at what the other one touches, as long as the row can be read.

* `Row.IsBooked`           a row whose amount came back from the book
* `Row.isRead_iff`         what of a row decides whether it can be read
* `Row.over?_extra`        metadata put in the place of others
* `Entry.OnSuggestion`     a change of an entry that has to do with its suggestion alone
* `Revised.of_columns`     such a change made of a row with other columns
* `Updated.of_metadata`    changes made of a row with other metadata
* `exec_update`, `exec_revise`, `exec_told`   what is made of a row is made in the book
-/

namespace Billfold

open Act

/-! ## amounts that can be kept -/

theorem settle?_of_number {x : Decimal} (number : x.isNaN = false) : ∃ y, settle? x = some y := by
  cases x with
  | finite => exact ⟨_, rfl⟩
  | infinite => exact ⟨_, rfl⟩
  | nan => cases number

theorem number_of_settle? {x y : Decimal} (h : settle? x = some y) : y.isNaN = false := by
  obtain ⟨kept, stored, rfl⟩ := Option.map_eq_some_iff.1 h
  cases x with
  | finite negative m e =>
    by_cases none : m = 0
    · subst none
      cases stored
      rfl
    cases stored
    rcases Binary64.ofDecimal_sign negative none e with ⟨n, f, rounded⟩ | rounded
    · rw [rounded]
      cases n <;> rfl
    · rw [rounded]
      rfl
  | infinite => cases stored; rfl
  | nan => cases stored

namespace Row

variable {r old made row settled edited : Row} {x : Json}

theorem number_of_over? (h : made.over? old = some settled) : settled.amount.isNaN = false := by
  obtain ⟨kept, settles, rfl⟩ := Option.map_eq_some_iff.1 h
  obtain ⟨amount, back, rfl⟩ := Option.map_eq_some_iff.1 settles
  show (if made.amount.sameValue old.amount then old.amount else amount).isNaN = false
  split
  · next same =>
    cases value : old.amount with
    | nan =>
      rw [value] at same
      cases given : made.amount <;> rw [given] at same <;> cases same
    | _ => rfl
  · exact number_of_settle? back

def IsBooked (r : Row) : Prop := ∃ x, settle? x = some r.amount

theorem IsBooked.number (h : r.IsBooked) : r.amount.isNaN = false := by
  obtain ⟨x, back⟩ := h
  exact number_of_settle? back

theorem booked_of_settled? (h : r.settled? = some settled) : settled.IsBooked := by
  obtain ⟨amount, back, rfl⟩ := Option.map_eq_some_iff.1 h
  exact ⟨r.amount, back⟩

theorem IsBooked.over? (h : old.IsBooked) (inPlace : made.over? old = some settled) :
    settled.IsBooked := by
  obtain ⟨kept, settles, rfl⟩ := Option.map_eq_some_iff.1 inPlace
  show ∃ x, settle? x = some (if made.amount.sameValue old.amount then old.amount else kept.amount)
  split
  · exact h
  · exact booked_of_settled? settles

/-! ## what is read -/

theorem isRead_iff :
    (∃ e, r.entry = .ok e) ↔
      (∃ m, Entry.readExtra r.extra = .ok m) ∧ ∃ a, r.amount.toCents = .ok a := by
  constructor
  · rintro ⟨e, h⟩
    obtain ⟨m, read, h⟩ := Except.bind_eq_ok.1 h
    obtain ⟨a, cents, -⟩ := Except.bind_eq_ok.1 h
    exact ⟨⟨m, read⟩, a, cents⟩
  · rintro ⟨⟨m, read⟩, a, cents⟩
    exact ⟨_, Except.bind_eq_ok.2 ⟨m, read, Except.bind_eq_ok.2 ⟨a, cents, rfl⟩⟩⟩

theorem over?_extra (number : row.amount.isNaN = false) (wall : row.IsWall) (x : Json) :
    { row with extra := x }.over? row =
      some { row with extra := if x.same row.extra then row.extra else x } := by
  obtain ⟨y, back⟩ := settle?_of_number number
  unfold over? settled?
  simp only [back, Option.map_some, Decimal.sameValue_self number, if_true]
  rw [show row.lockedAt.map Instant.wall = row.lockedAt from wall]

/-- the other columns take their places whatever the metadata of both are -/
theorem over?_of_metadata (h : made.over? old = some settled) (x : Json) :
    { made with extra := x }.over? { old with extra := x } = some { settled with extra := x } := by
  obtain ⟨kept, settles, rfl⟩ := Option.map_eq_some_iff.1 h
  obtain ⟨amount, back, rfl⟩ := Option.map_eq_some_iff.1 settles
  unfold over? settled?
  simp only [back, Option.map_some, ite_self]

end Row

/-! ## work on a suggestion -/

namespace Entry

structure SameMap (e e' : Entry) : Prop where
  suggestion : e'.suggestion = e.suggestion
  tag : e'.tag = e.tag
  extra : e'.extra = e.extra

theorem SameMap.writeExtra {e e' : Entry} (h : e.SameMap e') : e'.writeExtra = e.writeExtra := by
  unfold Entry.writeExtra
  rw [h.suggestion, h.tag, h.extra]

/-- a change looks at the suggestion of an entry alone, and puts another in its place -/
def OnSuggestion (change : Entry → Except Error Entry) : Prop :=
  ∀ ⦃e e' c : Entry⦄, change e = .ok c → e'.suggestion = e.suggestion →
    change e' = .ok { e' with suggestion := c.suggestion }

end Entry

namespace Row

variable {row other settled : Row} {change : Entry → Except Error Entry} {changed : Entry}

theorem sameMap_of_entry {e e' : Entry} (extra : other.extra = row.extra) (h : row.entry = .ok e)
    (h' : other.entry = .ok e') : e.SameMap e' := by
  obtain ⟨metadata, reads⟩ := reads_of_entry h
  obtain ⟨metadata', reads'⟩ := reads_of_entry h'
  have map := reads'.map
  rw [extra, reads.map] at map
  cases map
  refine ⟨?_, ?_, ?_⟩
  · rw [reads'.suggestion, reads.suggestion]
  · exact Except.ok.inj (reads'.tag.symm.trans reads.tag)
  · rw [reads'.extra, reads.extra]

/-- **What work on a suggestion makes of a row it makes of the same metadata beside other
columns.** -/
theorem Revised.of_columns (h : row.Revised change changed settled)
    (narrow : Entry.OnSuggestion change) (extra : other.extra = row.extra)
    (read : ∃ e, other.entry = .ok e) (number : other.amount.isNaN = false) (wall : other.IsWall) :
    ∃ changed', other.Revised change changed' { other with extra := settled.extra } := by
  obtain ⟨e, was_read, made⟩ := h.made
  obtain ⟨e', read⟩ := read
  have same := sameMap_of_entry extra was_read read
  have written : ({ e' with suggestion := changed.suggestion } : Entry).writeExtra =
      changed.writeExtra := by
    have only := Except.ok.inj (made.symm.trans (narrow made rfl))
    have kept : changed.SameMap { e' with suggestion := changed.suggestion } := by
      rw [only]
      exact ⟨rfl, same.tag, same.extra⟩
    exact kept.writeExtra
  refine ⟨_, ⟨e', read, narrow made same.suggestion⟩, ?_⟩
  rw [written, over?_extra number wall, extra, extra_of_over? h.inPlace]

/-- **A row can still be read after work on its suggestion.** -/
theorem Revised.isRead (h : row.Revised change changed settled)
    (narrow : Entry.OnSuggestion change) : ∃ m, Entry.readExtra settled.extra = .ok m := by
  obtain ⟨e, read, made⟩ := h.made
  rw [extra_of_over? h.inPlace]
  dsimp only
  split
  · exact (isRead_iff.1 ⟨e, read⟩).1
  · obtain ⟨metadata, reads⟩ := reads_of_entry read
    have only := Except.ok.inj (made.symm.trans (narrow made rfl))
    rw [only]
    exact ⟨_, Entry.readExtra_of_tag (Entry.read_tag_written reads.tag reads.extra)⟩

end Row

/-! ## changes -/

namespace Row

variable {row edited settled : Row} {b : Book} {now : Instant} {c : Changes} {x : Json}

theorem Updated.number (h : row.Updated b now c settled) : settled.amount.isNaN = false := by
  cases h with
  | kept edit flag inPlace => exact number_of_over? inPlace
  | relocked edit flag asked decided inPlace => exact number_of_over? inPlace

theorem Updated.booked (h : row.Updated b now c settled) (was : row.IsBooked) :
    settled.IsBooked := by
  cases h with
  | kept edit flag inPlace => exact was.over? inPlace
  | relocked edit flag asked decided inPlace => exact was.over? inPlace

theorem Updated.isWall (h : row.Updated b now c settled) : settled.IsWall := by
  obtain ⟨_, settles, -⟩ := h.settles
  exact settles.isWall

theorem edit_of_metadata (h : row.edit c = .ok edited) (x : Json) :
    { row with extra := x }.edit c = .ok { edited with extra := x } := by
  obtain ⟨amount, given, h⟩ := Except.bind_eq_ok.1 h
  cases h
  exact Except.bind_eq_ok.2 ⟨amount, given, rfl⟩

theorem stamp_of_metadata {policy : Option Policy} {stamp : Option Stamp}
    (h : row.stamp policy now = .ok stamp) (read : ∃ m, Entry.readExtra x = .ok m) :
    { row with extra := x }.stamp policy now = .ok stamp := by
  obtain ⟨e, was_read, h⟩ := Except.bind_eq_ok.1 h
  have cents := (isRead_iff.1 ⟨e, was_read⟩).2
  obtain ⟨e', read⟩ := (isRead_iff (r := { row with extra := x })).2 ⟨read, cents⟩
  refine Except.bind_eq_ok.2 ⟨e', read, ?_⟩
  rw [charge_of_entry was_read] at h
  rw [charge_of_entry read]
  exact h

theorem stampedBy_extra (stamp : Option Stamp) :
    { row with extra := x }.stampedBy stamp = { row.stampedBy stamp with extra := x } := by
  cases stamp <;> rfl

/-- **What changes make of a row they make of the same columns beside other metadata**, in any book
with the same accounts. -/
theorem Updated.of_metadata (h : row.Updated b now c settled) {b' : Book}
    (accounts : b'.accounts = b.accounts) (read : ∃ m, Entry.readExtra x = .ok m) :
    { row with extra := x }.Updated b' now c { settled with extra := x } := by
  cases h with
  | kept edit flag inPlace =>
    exact .kept (edit_of_metadata edit x) flag (over?_of_metadata inPlace x)
  | relocked edit flag asked decided inPlace =>
    refine .relocked (edit_of_metadata edit x) flag ?_ (stamp_of_metadata decided read) ?_
    · unfold Book.policyOf Book.account? at asked ⊢
      rw [accounts]
      exact asked
    · rw [stampedBy_extra]
      exact over?_of_metadata inPlace x

end Row

/-! ## in the book -/

namespace Ledger

variable {s : Session} {id : String} {row settled : Row} {change : Entry → Except Error Entry}

theorem exec_rowFor (up : s.storeUp = true) (found : s.book.row? id = some row) :
    (rowFor id).exec s = (.ok row, s) := by
  unfold rowFor
  rw [exec_bind, exec_book, if_pos up]
  dsimp only
  rw [exec_require, found]

theorem exec_keepRow {r : Row} (inPlace : r.over? row = some settled) :
    (keepRow r row).exec s = (.ok settled, { s with book := s.book.putRow settled }) := by
  unfold keepRow
  rw [inPlace]
  rfl

theorem exec_stampRow {policy : Option Policy} {stamp : Option Stamp} (reason : StampReason)
    (decided : row.stamp policy s.clock = .ok stamp) :
    ∃ t, (stampRow policy row reason).exec s = (.ok (row.stampedBy stamp), t) ∧ s.Quiet t := by
  rcases ran : (stampRow policy row reason).exec s with ⟨x, t⟩
  obtain ⟨quiet, ⟨_, e, -⟩ | ⟨_, e, rfl⟩⟩ := stampRow_cases ran
  · rw [decided] at e
    cases e
  · rw [decided] at e
    cases e
    exact ⟨t, rfl, quiet⟩

/-- what changes make of a row is put into the book, if the store takes the texts -/
theorem exec_update {c : Changes} (up : s.storeUp = true) (found : s.book.row? id = some row)
    (writable : c.isWritable = true) (updated : row.Updated s.book s.clock c settled) :
    ∃ t, (update id c).exec s = (Except.liftFault settled.entry, t) ∧
      t.book = s.book.putRow settled := by
  have written : (needWritable c.isWritable).exec s = (.ok (), s) := by
    rw [writable]
    rfl
  unfold update
  cases updated with
  | @kept edited _ edit flag inPlace =>
    have same : needsStamp row.deferred edited.deferred = false := by simp [needsStamp, flag]
    have made : (ofResult (row.edit c)).exec s = (.ok edited, s) := by
      rw [edit]
      rfl
    refine ⟨{ s with book := s.book.putRow settled }, ?_, rfl⟩
    rw [exec_bind_of_ok (exec_transact_of_ok ?_), exec_ofFault]
    rw [exec_bind_of_ok (exec_rowFor up found), exec_bind_of_ok made, exec_bind_of_ok written,
      same]
    exact exec_keepRow inPlace
  | @relocked edited _ policy stamp edit flag asked decided inPlace =>
    have differ : needsStamp row.deferred edited.deferred = true := by
      simpa [needsStamp] using flag.symm
    have made : (ofResult (row.edit c)).exec s = (.ok edited, s) := by
      rw [edit]
      rfl
    have told : (ofResult (s.book.policyOf edited)).exec s = (.ok policy, s) := by
      rw [asked]
      rfl
    obtain ⟨t, stamped, quiet⟩ := exec_stampRow .relock decided
    refine ⟨{ t with book := s.book.putRow settled }, ?_, rfl⟩
    rw [exec_bind_of_ok (exec_transact_of_ok ?_), exec_ofFault]
    rw [exec_bind_of_ok (exec_rowFor up found), exec_bind_of_ok made, exec_bind_of_ok written,
      differ, if_pos rfl, exec_bind_of_ok (exec_get s), exec_bind_of_ok told,
      exec_bind_of_ok stamped, exec_keepRow inPlace, quiet.book]

/-- what work on a suggestion makes of a row is put into the book -/
theorem exec_revise {changed : Entry} (up : s.storeUp = true) (found : s.book.row? id = some row)
    (revised : row.Revised change changed settled) :
    (revise id change).exec s = (.ok changed, { s with book := s.book.putRow settled }) := by
  obtain ⟨e, read, made⟩ := revised.made
  have asked : (ofFault row.entry).exec s = (.ok e, s) := by
    rw [read]
    rfl
  have given : (ofResult (change e)).exec s = (.ok changed, s) := by
    rw [made]
    rfl
  unfold revise
  refine exec_transact_of_ok ?_
  rw [exec_bind_of_ok (exec_rowFor up found), exec_bind_of_ok asked, exec_bind_of_ok given,
    exec_bind_of_ok (exec_keepRow revised.inPlace)]
  rfl

theorem exec_told {changed : Entry} (request : Option String) (how : Resolution)
    (up : s.storeUp = true) (found : s.book.row? id = some row)
    (revised : row.Revised change changed settled) :
    ∃ t, (told id change request how).exec s = (.ok changed, t) ∧
      t.book = s.book.putRow settled := by
  unfold told
  rw [exec_bind_of_ok (exec_revise up found revised)]
  obtain ⟨t, recorded, quiet⟩ := exec_recordResolution request id how none
    { s with book := s.book.putRow settled }
  rw [exec_bind_of_ok recorded]
  exact ⟨t, rfl, quiet.book⟩

end Ledger

end Billfold
