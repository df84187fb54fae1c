import Billfold.Ledger.Resolve
import Billfold.Ledger.Upkeep
import Billfold.Proofs.Decimal.Sign
import Billfold.Proofs.Ledger.Stamping

/-!
# What an operation makes of one row

Each operation on a row fails with the book as it was, or puts one row in place of the one it found,
or drops it.

* `rowFor_ok`, `keepRow_ok`      the row that is found, and the one that takes its place
* `Row.Updated`                  what changes make of a row, at a time
* `updateRow`, `update_cases`    changes made, whether or not the row can be read afterwards
* `Row.Revised`, `revise_cases`  metadata written anew
* `recorded`, `recorded_cases`   what is counted and logged afterwards
* `Book.Merges`, `merge_cases`   a pending entry dropped
-/

namespace Billfold

open Act

variable {s t : Session} {id : String}

namespace Ledger

theorem rowFor_ok {row : Row} (h : (rowFor id).exec s = (.ok row, t)) :
    s.storeUp = true ∧ s.book.row? id = some row ∧ s = t := by
  obtain ⟨_, _, asked, run⟩ := exec_bind_ok h
  obtain ⟨up, rfl, rfl⟩ := exec_book_ok asked
  obtain ⟨found, rfl⟩ := exec_require_ok run
  exact ⟨up, found, rfl⟩

theorem keepRow_ok {r old settled : Row} (h : (keepRow r old).exec s = (.ok settled, t)) :
    r.over? old = some settled ∧ { s with book := s.book.putRow settled } = t := by
  unfold keepRow at h
  cases kept : r.over? old with
  | none => rw [kept] at h; cases h
  | some row => rw [kept] at h; cases h; exact ⟨rfl, rfl⟩

end Ledger

/-! ## changes -/

/-- what changes make of a row, in a book and at a time; the row is stamped anew if they change its
flag -/
inductive Row.Updated (b : Book) (now : Instant) (c : Changes) (row : Row) : Row → Prop
  | kept {edited settled : Row} (edit : row.edit c = .ok edited)
      (flag : edited.deferred = row.deferred) (inPlace : edited.over? row = some settled) :
      Updated b now c row settled
  | relocked {edited settled : Row} {policy : Option Policy} {stamp : Option Stamp}
      (edit : row.edit c = .ok edited) (flag : edited.deferred ≠ row.deferred)
      (asked : b.policyOf edited = .ok policy) (decided : edited.stamp policy now = .ok stamp)
      (inPlace : (edited.stampedBy stamp).over? row = some settled) :
      Updated b now c row settled

/-- changes touch the name, the amount and the flag -/
theorem Row.eq_of_edit {r edited : Row} {c : Changes} (h : r.edit c = .ok edited) :
    edited = { r with name := c.name.getD r.name, amount := edited.amount,
                      deferred := c.deferred.getD r.deferred } := by
  unfold edit at h
  obtain ⟨amount, -, h⟩ := Except.bind_eq_ok.1 h
  cases h
  rfl

/-- the row as the book was given it: with the row's id, and stamped anew if that was decided -/
theorem Row.Updated.settles {b : Book} {now : Instant} {c : Changes} {row settled : Row}
    (h : row.Updated b now c settled) : ∃ r : Row, r.Settles settled ∧ r.id = row.id := by
  cases h with
  | kept edit flag inPlace => exact ⟨_, settles_of_over? inPlace, by rw [eq_of_edit edit]⟩
  | relocked edit flag asked decided inPlace =>
    exact ⟨_, settles_of_over? inPlace, by rw [id_stampedBy, eq_of_edit edit]⟩

theorem Row.Updated.keeps {b : Book} {now : Instant} {c : Changes} {old settled : Row}
    (h : old.Updated b now c settled) :
    settled.account = old.account ∧ settled.date = old.date := by
  cases h with
  | kept edit flag inPlace =>
    have settles := settles_of_over? inPlace
    rw [settles.account, settles.date, eq_of_edit edit]
    exact ⟨rfl, rfl⟩
  | relocked edit flag asked decided inPlace =>
    have settles := settles_of_over? inPlace
    rw [settles.account, settles.date, account_stampedBy, date_stampedBy, eq_of_edit edit]
    exact ⟨rfl, rfl⟩

namespace Ledger

section

variable {R : Session → Session → Prop}

theorem within_rowFor [Session.Chain R] : Within R (rowFor id) :=
  within_bind within_book fun _ => within_require _ _

variable [Session.Backdrop R]

theorem within_keepRow (r old : Row) : Within R (keepRow r old) := by
  unfold keepRow
  split
  · exact within_bind within_get fun _ => within_bind (within_setBook _) fun _ => within_pure _
  · exact within_fail _

/-- an edited row is stamped anew if its flag is turned, and takes the place of the old one -/
def keepEdited (row edited : Row) : Act Row := do
  if needsStamp row.deferred edited.deferred then
    let policy ← ofResult ((← get).book.policyOf edited)
    keepRow (← stampRow policy edited .relock) row
  else
    keepRow edited row

/-- what changes do to the book -/
def updateRow (id : String) (c : Changes) : Act Row := do
  let row ← rowFor id
  let edited ← ofResult (row.edit c)
  needWritable c.isWritable
  keepEdited row edited

theorem update_eq (id : String) (c : Changes) :
    update id c = transact (updateRow id c) >>= fun settled => ofFault settled.entry := rfl

theorem within_update (skips : Session.Allows R (.stamps .skipped))
    (stamps : Session.Allows R (.stamps .relock)) (id : String) (c : Changes) :
    Within R (update id c) := by
  have kept (row edited : Row) : Within R (keepEdited row edited) := by
    unfold keepEdited
    split
    · exact within_bind within_get fun _ => within_bind (within_ofResult _) fun _ =>
        within_bind (within_stampRow skips stamps _ _) fun _ => within_keepRow _ _
    · exact within_keepRow _ _
  exact within_bind
    (within_transact <| within_bind within_rowFor fun _ => within_bind (within_ofResult _) fun _ =>
      within_bind (within_needWritable _) fun _ => kept _ _)
    fun _ => within_ofFault _

end

theorem later_update (id : String) (c : Changes) : Within Session.Later (update id c) :=
  within_update (Session.allows_later _) (Session.allows_later _) id c

theorem keepEdited_ok {c : Changes} {row edited settled : Row} (edit : row.edit c = .ok edited)
    (h : (keepEdited row edited).exec s = (.ok settled, t)) :
    row.Updated s.book s.clock c settled ∧ t.book = s.book.putRow settled := by
  unfold keepEdited at h
  split at h
  · next flag =>
    obtain ⟨_, _, got, run⟩ := exec_bind_ok h
    cases got
    obtain ⟨policy, _, told, run⟩ := exec_bind_ok run
    obtain ⟨asked, rfl⟩ := exec_ofResult_ok told
    obtain ⟨stamped, u, stamping, run⟩ := exec_bind_ok run
    obtain ⟨quiet, ⟨_, -, e⟩ | ⟨stamp, decided, e⟩⟩ := stampRow_cases stamping
    · cases e
    cases e
    obtain ⟨inPlace, rfl⟩ := keepRow_ok run
    refine ⟨.relocked edit ?_ asked decided inPlace, ?_⟩
    · intro same
      simp [needsStamp, same] at flag
    · show u.book.putRow settled = _
      rw [quiet.book]
  · next flag =>
    obtain ⟨inPlace, rfl⟩ := keepRow_ok h
    have same : row.deferred = edited.deferred := by simpa [needsStamp] using flag
    exact ⟨.kept edit same.symm inPlace, rfl⟩

theorem updateRow_ok {c : Changes} {settled : Row}
    (h : (updateRow id c).exec s = (.ok settled, t)) :
    c.isWritable = true ∧ ∃ row, s.storeUp = true ∧ s.book.row? id = some row ∧
      row.Updated s.book s.clock c settled ∧ t.book = s.book.putRow settled := by
  obtain ⟨row, _, looked, run⟩ := exec_bind_ok h
  obtain ⟨up, found, rfl⟩ := rowFor_ok looked
  obtain ⟨edited, _, made, run⟩ := exec_bind_ok run
  obtain ⟨edit, rfl⟩ := exec_ofResult_ok made
  obtain ⟨_, _, written, run⟩ := exec_bind_ok run
  obtain ⟨writable, rfl⟩ := exec_needWritable_ok written
  exact ⟨writable, row, up, found, keepEdited_ok edit run⟩

/-- **Changes are made or not.**  After they are made, a row that cannot be read is a fault and they
stay made. -/
theorem update_cases {c : Changes} {x : Except Error Entry}
    (h : (update id c).exec s = (x, t)) :
    (∃ e, x = .error e ∧ t.book = s.book) ∨
      ∃ row settled, s.storeUp = true ∧ s.book.row? id = some row ∧
        row.Updated s.book s.clock c settled ∧ t.book = s.book.putRow settled ∧
        x = Except.liftFault settled.entry := by
  rw [update_eq] at h
  rcases exec_bind_cases h with ⟨e, failed, rfl⟩ | ⟨settled, _, done, last⟩
  · exact .inl ⟨e, rfl, exec_transact_error failed⟩
  -- the row is read once more when the change is kept already
  cases last
  obtain ⟨-, row, up, found, updated, put⟩ := updateRow_ok (exec_transact_ok done)
  exact .inr ⟨row, settled, up, found, updated, put, rfl⟩

theorem writable_of_update {c : Changes} {e : Entry} (h : (update id c).exec s = (.ok e, t)) :
    c.isWritable = true := by
  obtain ⟨_, _, done, -⟩ := exec_bind_ok h
  exact (updateRow_ok (exec_transact_ok done)).1

end Ledger

/-! ## suggestions -/

/-- what a change of its entry makes of a row: the metadata are written anew as the changed entry
has them -/
structure Row.Revised (row : Row) (change : Entry → Except Error Entry) (changed : Entry)
    (settled : Row) : Prop where
  made : ∃ entry, row.entry = .ok entry ∧ change entry = .ok changed
  inPlace : { row with extra := .object changed.writeExtra }.over? row = some settled

/-- a row is read as an entry that can be merged, with these two ids -/
structure Book.Merges (b : Book) (row : Row) (merged : Merged) : Prop where
  made : ∃ entry, row.entry = .ok entry ∧
    entry.merge (fun posted => (b.row? posted).isSome) = .ok merged

theorem Row.Revised.settles {row settled : Row} {change : Entry → Except Error Entry}
    {changed : Entry} (h : row.Revised change changed settled) :
    { row with extra := .object changed.writeExtra }.Settles settled :=
  Row.settles_of_over? h.inPlace

/-- **Work on a suggestion writes the metadata of its row and no other column.** -/
theorem Row.Revised.eq {row settled : Row} {change : Entry → Except Error Entry} {changed : Entry}
    (h : row.Revised change changed settled) (wall : row.IsWall) :
    settled = { row with extra := settled.extra } := by
  have inPlace := h.inPlace
  unfold Row.over? Row.settled? at inPlace
  obtain ⟨_, kept, rfl⟩ := Option.map_eq_some_iff.1 inPlace
  obtain ⟨amount, settles, rfl⟩ := Option.map_eq_some_iff.1 kept
  have number : row.amount.isNaN = false := by
    cases value : row.amount with
    | nan =>
      simp only [value] at settles
      cases settles
    | _ => rfl
  simp only [Decimal.sameValue_self number, if_true]
  rw [show row.lockedAt.map Instant.wall = row.lockedAt from wall]

namespace Ledger

theorem within_revise {R : Session → Session → Prop} [Session.Backdrop R] (id : String)
    (change : Entry → Except Error Entry) : Within R (revise id change) :=
  within_transact <| within_bind within_rowFor fun _ => within_bind (within_ofFault _) fun _ =>
    within_bind (within_ofResult _) fun _ => within_bind (within_keepRow _ _) fun _ => within_pure _

theorem later_revise (id : String) (change : Entry → Except Error Entry) :
    Within Session.Later (revise id change) := within_revise id change

/-- **Metadata are written anew or not**, and nothing else of the row is. -/
theorem revise_cases {change : Entry → Except Error Entry} {x : Except Error Entry}
    (h : (revise id change).exec s = (x, t)) :
    (∃ e, x = .error e ∧ t.book = s.book) ∨
      ∃ row changed settled, s.storeUp = true ∧ s.book.row? id = some row ∧
        row.Revised change changed settled ∧ t.book = s.book.putRow settled ∧
        x = .ok changed := by
  unfold revise at h
  cases x with
  | error e => exact .inl ⟨e, rfl, exec_transact_error h⟩
  | ok entry =>
    obtain ⟨row, _, looked, run⟩ := exec_bind_ok (exec_transact_ok h)
    obtain ⟨up, found, rfl⟩ := rowFor_ok looked
    obtain ⟨read, _, asked, run⟩ := exec_bind_ok run
    obtain ⟨readable, rfl⟩ := exec_ofFault_ok asked
    obtain ⟨changed, _, asked, run⟩ := exec_bind_ok run
    obtain ⟨made, rfl⟩ := exec_ofResult_ok asked
    obtain ⟨settled, _, kept, run⟩ := exec_bind_ok run
    obtain ⟨inPlace, rfl⟩ := keepRow_ok kept
    cases run
    exact .inr ⟨row, _, settled, up, found, ⟨⟨read, readable, made⟩, inPlace⟩, rfl, rfl⟩

theorem exec_recordResolution (request : Option String) (id : String) (how : Resolution)
    (posted : Option String) (s : Session) :
    ∃ t, (recordResolution request id how posted).exec s = (.ok (), t) ∧ s.Quiet t := by
  unfold recordResolution
  obtain ⟨t, counted, quiet⟩ := exec_count (.resolutions how) 1 s
  obtain ⟨u, noted, quiet'⟩ := exec_note .info "Duplicate suggestion resolved"
    (resolutionFields request id how posted) t
  refine ⟨u, ?_, Session.Chain.trans quiet quiet'⟩
  rw [exec_bind, counted]
  exact noted

/-- an operation that is counted and logged as a resolution if it comes to a value -/
def recorded {α : Type} (act : Act α) (request : Option String) (id : String) (how : Resolution)
    (posted : α → Option String) : Act α := do
  let a ← act
  recordResolution request id how (posted a)
  return a

section

variable {α : Type} {act : Act α} {request : Option String} {how : Resolution}
  {posted : α → Option String}

theorem within_recorded {R : Session → Session → Prop} [Session.Backdrop R]
    (allows : Session.Allows R (.resolutions how)) (within : Within R act) :
    Within R (recorded act request id how posted) :=
  within_bind within fun _ => within_bind
    (within_bind (within_count allows 1) fun _ => within_note _ _ _) fun _ => within_pure _

/-- what is recorded comes to the same and makes the same book -/
theorem recorded_cases {x : Except Error α}
    (h : (recorded act request id how posted).exec s = (x, t)) :
    ∃ u, act.exec s = (x, u) ∧ t.book = u.book := by
  rcases exec_bind_cases h with ⟨e, failed, rfl⟩ | ⟨a, u, done, last⟩
  · exact ⟨t, failed, rfl⟩
  obtain ⟨v, told, quiet⟩ := exec_recordResolution request id how (posted a) u
  rw [exec_bind_of_ok told] at last
  cases last
  exact ⟨u, done, quiet.book⟩

end

/-- what a merge does to the book -/
def mergeRow (id : String) : Act Merged :=
  transact do
    let b ← book
    let row ← require (b.row? id) (.notFound .noEntry)
    let entry ← ofFault row.entry
    needWritable entry.canLookUp
    let merged ← ofResult (entry.merge fun posted => (b.row? posted).isSome)
    setBook (b.dropRow row.id)
    return merged

theorem merge_eq (id : String) (request : Option String) :
    merge id request = recorded (mergeRow id) request id .merge fun m => some m.posted := rfl

theorem within_mergeRow {R : Session → Session → Prop} [Session.Backdrop R] (id : String) :
    Within R (mergeRow id) :=
  within_transact <| within_bind within_book fun _ => within_bind (within_require _ _) fun _ =>
    within_bind (within_ofFault _) fun _ => within_bind (within_needWritable _) fun _ =>
    within_bind (within_ofResult _) fun _ => within_bind (within_setBook _) fun _ => within_pure _

theorem within_merge {R : Session → Session → Prop} [Session.Backdrop R]
    (allows : Session.Allows R (.resolutions .merge)) (id : String) (request : Option String) :
    Within R (merge id request) :=
  within_recorded allows (within_mergeRow id)

theorem later_merge (id : String) (request : Option String) :
    Within Session.Later (merge id request) := within_merge (Session.allows_later _) id request

theorem merge_cases {request : Option String} {x : Except Error Merged}
    (h : (merge id request).exec s = (x, t)) :
    (∃ e, x = .error e ∧ t.book = s.book) ∨
      ∃ row merged, s.storeUp = true ∧ s.book.row? id = some row ∧ s.book.Merges row merged ∧
        t.book = s.book.dropRow id ∧ x = .ok merged := by
  rw [merge_eq] at h
  obtain ⟨u, done, same⟩ := recorded_cases h
  cases x with
  | error e => exact .inl ⟨e, rfl, same.trans (exec_transact_error done)⟩
  | ok merged =>
    obtain ⟨b, _, asked, run⟩ := exec_bind_ok (exec_transact_ok done)
    obtain ⟨up, rfl, rfl⟩ := exec_book_ok asked
    obtain ⟨row, _, looked, run⟩ := exec_bind_ok run
    obtain ⟨found, rfl⟩ := exec_require_ok looked
    obtain ⟨entry, _, asked, run⟩ := exec_bind_ok run
    obtain ⟨readable, rfl⟩ := exec_ofFault_ok asked
    obtain ⟨_, _, asked, run⟩ := exec_bind_ok run
    obtain ⟨-, rfl⟩ := exec_needWritable_ok asked
    obtain ⟨_, _, asked, run⟩ := exec_bind_ok run
    obtain ⟨made, rfl⟩ := exec_ofResult_ok asked
    cases run
    refine .inr ⟨row, merged, up, found, ⟨entry, readable, made⟩, ?_, rfl⟩
    rw [same]
    show s.book.dropRow row.id = _
    rw [Book.id_of_row? found]

/-- a revision that is counted and logged afterwards -/
def told (id : String) (change : Entry → Except Error Entry) (request : Option String)
    (how : Resolution) : Act Entry := do
  let entry ← revise id change
  recordResolution request id how none
  return entry

theorem dismiss_eq (id : String) (request : Option String) :
    dismiss id request = told id Entry.dismiss request .dismiss := rfl

theorem clear_eq (id : String) (request : Option String) :
    clear id request = told id (fun e => .ok e.clear) request .clear := rfl

theorem told_eq (id : String) (change : Entry → Except Error Entry) (request : Option String)
    (how : Resolution) :
    told id change request how = recorded (revise id change) request id how fun _ => none := rfl

theorem within_told {R : Session → Session → Prop} [Session.Backdrop R] {how : Resolution}
    (allows : Session.Allows R (.resolutions how)) (id : String)
    (change : Entry → Except Error Entry) (request : Option String) :
    Within R (told id change request how) :=
  within_recorded allows (within_revise id change)

theorem later_told (id : String) (change : Entry → Except Error Entry) (request : Option String)
    (how : Resolution) : Within Session.Later (told id change request how) :=
  within_told (Session.allows_later _) id change request

theorem told_cases {change : Entry → Except Error Entry} {request : Option String}
    {how : Resolution} {x : Except Error Entry}
    (h : (told id change request how).exec s = (x, t)) :
    (∃ e, x = .error e ∧ t.book = s.book) ∨
      ∃ row changed settled, s.storeUp = true ∧ s.book.row? id = some row ∧
        row.Revised change changed settled ∧ t.book = s.book.putRow settled ∧
        x = .ok changed := by
  rw [told_eq] at h
  obtain ⟨u, done, same⟩ := recorded_cases h
  rw [same]
  exact revise_cases done

end Ledger

end Billfold
