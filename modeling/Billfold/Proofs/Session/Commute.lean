import Billfold.Proofs.Http.Failure
import Billfold.Proofs.Ledger.Apart
import Billfold.Proofs.Session.Merge
import Billfold.Proofs.Session.Row

/-!
# Changes and work on suggestions

The columns of an entry are changed, and the suggestion of that entry or of another one is worked
on.  Each reads a whole row and writes a whole row back, and still neither loses what the other did:
the book is the same whichever comes first.

* `Reachable.booked`     every amount in the book came back from it
* `Session.Edits`        changes that are made, and the row that they make
* `Session.Reworks`      work on a suggestion that is done, and the row that it makes
* `edits_of_take`, `fails_iff_reworks`   they are what a step does that does not fail
* `update_commutes`      the order does not matter
-/

namespace Billfold

theorem Step.onSuggestion {step : Step} {id : String} {change : Entry → Except Error Entry}
    (asked : step.revision? = some (id, change)) : Entry.OnSuggestion change := by
  intro e e' c made same
  cases step with
  | attach => cases asked; cases made; rfl
  | clear => cases asked; cases made; rfl
  | dismiss =>
    cases asked
    unfold Entry.dismiss at made ⊢
    rw [same]
    split at made
    · cases made
    · cases made
      rfl
  | _ => cases asked

theorem Step.act_of_revision {step : Step} {id : String} {change : Entry → Except Error Entry}
    (asked : step.revision? = some (id, change)) :
    step.act = Reply.entry <$> Ledger.revise id change ∨
      ∃ request how, step.act = Reply.entry <$> Ledger.told id change request how := by
  cases step with
  | attach => cases asked; exact .inl rfl
  | dismiss _ request => cases asked; exact .inr ⟨request, .dismiss, rfl⟩
  | clear _ request => cases asked; exact .inr ⟨request, .clear, rfl⟩
  | _ => cases asked

theorem Book.putRow_comm (b : Book) {r s : Row} (differ : r.id ≠ s.id) :
    (b.putRow r).putRow s = (b.putRow s).putRow r := by
  unfold Book.putRow
  simp only [List.map_map]
  congr 1
  refine List.map_congr_left fun x _ => ?_
  show (if (if x.id = r.id then r else x).id = s.id then s else if x.id = r.id then r else x) =
    if (if x.id = s.id then s else x).id = r.id then r else if x.id = s.id then s else x
  by_cases here : x.id = r.id
  · have there : x.id ≠ s.id := fun e => differ (here.symm.trans e)
    simp only [if_pos here, if_neg there, if_neg differ]
  · by_cases there : x.id = s.id
    · simp only [if_neg here, if_pos there, if_neg differ.symm]
    · simp only [if_neg here, if_neg there]

theorem Book.putRow_putRow (b : Book) {r s : Row} (same : r.id = s.id) :
    (b.putRow r).putRow s = b.putRow s := by
  unfold Book.putRow
  simp only [List.map_map]
  congr 1
  refine List.map_congr_left fun x _ => ?_
  by_cases hr : x.id = r.id
  · simp [hr, same]
  · simp only [Function.comp_apply, if_neg hr]

namespace Session

open Act

variable {s t : Session} {step : Step} {id other : String} {row settled : Row} {c : Changes}
variable {change : Entry → Except Error Entry}

theorem Reachable.booked (h : s.Reachable) (found : s.book.row? id = some row) : row.IsBooked := by
  induction h generalizing row with
  | fresh => cases found
  | @take s h step ih =>
    cases before : s.book.row? id with
    | none =>
      obtain ⟨_, _, _, -, drafted, mem, -⟩ := take_new h step before found
      obtain ⟨_, _, _, _, -, -, -, -, -, written⟩ := drafted.written
      obtain ⟨_, -, _, _, -, -, kept⟩ := written.exists_of_mem mem
      exact Row.booked_of_settled? kept
    | some old =>
      rcases take_remade h step before with same | ⟨done, -, remade⟩
      · rw [found] at same
        cases same
        exact ih before
      rw [found] at remade
      cases remade with
      | kept => exact ih before
      | edited made inPlace => exact (ih before).over? inPlace
      | updated updated => exact updated.booked (ih before)
      | revised asked revised => exact (ih before).over? revised.inPlace

/-! ## what is done -/

structure Edits (s : Session) (id : String) (c : Changes) (settled : Row) : Prop where
  storeUp : s.storeUp = true
  writable : c.isWritable = true
  made : ∃ row, s.book.row? id = some row ∧ row.Updated s.book s.clock c settled
  read : ∃ e, settled.entry = .ok e

structure Reworks (s : Session) (id : String) (change : Entry → Except Error Entry)
    (settled : Row) : Prop where
  storeUp : s.storeUp = true
  made : ∃ row changed, s.book.row? id = some row ∧ row.Revised change changed settled

theorem Edits.id_eq (h : s.Edits id c settled) : settled.id = id := by
  obtain ⟨row, found, updated⟩ := h.made
  obtain ⟨_, settles, same⟩ := updated.settles
  exact (settles.id.trans same).trans (Book.id_of_row? found)

theorem Reworks.id_eq (h : s.Reworks id change settled) : settled.id = id := by
  obtain ⟨row, changed, found, revised⟩ := h.made
  exact revised.settles.id.trans (show row.id = id from Book.id_of_row? found)

theorem result_edits (h : s.Edits id c settled) :
    (s.take (.update id c)).1.result = Reply.entry <$> Except.liftFault settled.entry ∧
      (s.take (.update id c)).2.book = s.book.putRow settled := by
  obtain ⟨row, found, updated⟩ := h.made
  obtain ⟨t, ran, put⟩ :=
    Ledger.exec_update (s := { s with log := [] }) h.storeUp found h.writable updated
  have taken := take_exec s (.update id c)
  unfold Step.act at taken
  rw [exec_map, ran] at taken
  obtain ⟨result, after⟩ := Prod.mk.inj taken
  exact ⟨result.symm, by rw [← after, put]⟩

theorem take_edits (h : s.Edits id c settled) :
    (s.take (.update id c)).1.fails = false ∧
      (s.take (.update id c)).2.book = s.book.putRow settled := by
  obtain ⟨result, put⟩ := result_edits h
  obtain ⟨e, read⟩ := h.read
  refine ⟨?_, put⟩
  unfold Outcome.fails
  rw [result, read]
  rfl

theorem edits_of_take (done : (s.take (.update id c)).1.fails = false) :
    ∃ settled, s.Edits id c settled := by
  obtain ⟨x, ran, result⟩ := exec_map_cases (take_exec s (.update id c))
  unfold Outcome.fails at done
  rw [result] at done
  cases x with
  | error => cases done
  | ok e =>
    rcases Ledger.update_cases ran with ⟨_, e, -⟩ | ⟨row, settled, up, found, updated, -, read⟩
    · cases e
    · have written := Ledger.writable_of_update ran
      exact ⟨settled, up, written, ⟨row, found, updated⟩, e, Except.liftFault_eq_ok.1 read.symm⟩

theorem result_reworks {changed : Entry} (asked : step.revision? = some (id, change))
    (up : s.storeUp = true) (found : s.book.row? id = some row)
    (revised : row.Revised change changed settled) :
    (s.take step).1.result = .ok (.entry changed) ∧
      (s.take step).2.book = s.book.putRow settled := by
  have taken := take_exec s step
  have ran : ∃ t, step.act.exec { s with log := [] } = (.ok (.entry changed), t) ∧
      t.book = s.book.putRow settled := by
    rcases Step.act_of_revision asked with same | ⟨request, how, same⟩
    · have ran := Ledger.exec_revise (s := { s with log := [] }) up found revised
      rw [same, exec_map, ran]
      exact ⟨_, rfl, rfl⟩
    · obtain ⟨t, ran, put⟩ := Ledger.exec_told (s := { s with log := [] }) request how up found
        revised
      rw [same, exec_map, ran]
      exact ⟨t, rfl, put⟩
  obtain ⟨t, ran, put⟩ := ran
  rw [ran] at taken
  obtain ⟨result, after⟩ := Prod.mk.inj taken
  exact ⟨result.symm, by rw [← after, put]⟩

theorem take_reworks (asked : step.revision? = some (id, change))
    (h : s.Reworks id change settled) :
    (s.take step).1.fails = false ∧ (s.take step).2.book = s.book.putRow settled := by
  obtain ⟨row, changed, found, revised⟩ := h.made
  obtain ⟨result, put⟩ := result_reworks asked h.storeUp found revised
  refine ⟨?_, put⟩
  unfold Outcome.fails
  rw [result]

theorem reworks_or_fails (asked : step.revision? = some (id, change)) :
    (∃ settled, s.Reworks id change settled) ∨
      (s.take step).1.fails = true ∧ (s.take step).2.book = s.book := by
  have run : ∃ x, (s.take step).1.result = Reply.entry <$> x ∧
      ((∃ e, x = .error e ∧ (s.take step).2.book = s.book) ∨
        ∃ row changed settled, s.storeUp = true ∧ s.book.row? id = some row ∧
          row.Revised change changed settled ∧ (s.take step).2.book = s.book.putRow settled ∧
          x = .ok changed) := by
    have taken := take_exec s step
    rcases Step.act_of_revision asked with same | ⟨request, how, same⟩
    · rw [same] at taken
      obtain ⟨x, ran, result⟩ := exec_map_cases taken
      exact ⟨x, result, Ledger.revise_cases (s := { s with log := [] }) ran⟩
    · rw [same] at taken
      obtain ⟨x, ran, result⟩ := exec_map_cases taken
      exact ⟨x, result, Ledger.told_cases (s := { s with log := [] }) ran⟩
  obtain ⟨x, result, ⟨e, rfl, kept⟩ | ⟨row, changed, settled, up, found, revised, -, -⟩⟩ := run
  · refine .inr ⟨?_, kept⟩
    unfold Outcome.fails
    rw [result]
    rfl
  · exact .inl ⟨settled, up, row, changed, found, revised⟩

theorem fails_iff_reworks (asked : step.revision? = some (id, change)) :
    (s.take step).1.fails = false ↔ ∃ settled, s.Reworks id change settled := by
  constructor
  · intro done
    rcases reworks_or_fails (s := s) asked with reworks | ⟨failed, -⟩
    · exact reworks
    · rw [done] at failed
      cases failed
  · rintro ⟨settled, reworks⟩
    exact (take_reworks asked reworks).1

/-! ## one after the other -/

variable {edited reworked : Row}

theorem scene_take (later : Within Later step.act) :
    (s.take step).2.storeUp = s.storeUp ∧ (s.take step).2.clock = s.clock := by
  have way : Later { s with log := [] } (s.take step).2 := later.of_exec (take_exec s step)
  exact ⟨way.storeUp, way.clock⟩

theorem later_edit (id : String) (c : Changes) : Within Later (Step.update id c).act :=
  within_map _ (Ledger.later_update id c)

theorem later_revision (asked : step.revision? = some (id, change)) : Within Later step.act := by
  rcases Step.act_of_revision asked with same | ⟨_, _, same⟩
  · rw [same]
    exact within_map _ (Ledger.later_revise id change)
  · rw [same]
    exact within_map _ (Ledger.later_told _ _ _ _)

theorem Edits.of_row (h : s.Edits id c settled) (up : t.storeUp = s.storeUp)
    (clock : t.clock = s.clock) (accounts : t.book.accounts = s.book.accounts)
    (same : t.book.row? id = s.book.row? id) : t.Edits id c settled := by
  obtain ⟨row, found, updated⟩ := h.made
  have extra := Row.extra_of_updated updated
  have read := (Row.isRead_iff.1 h.read).1
  have made := updated.of_metadata accounts read
  have itself : { row with extra := settled.extra } = row := by rw [extra]
  rw [itself, ← clock] at made
  exact ⟨up.trans h.storeUp, h.writable, ⟨row, same.trans found, made⟩, h.read⟩

theorem Reworks.of_row (h : s.Reworks id change settled) (up : t.storeUp = s.storeUp)
    (same : t.book.row? id = s.book.row? id) : t.Reworks id change settled := by
  obtain ⟨row, changed, found, revised⟩ := h.made
  exact ⟨up.trans h.storeUp, row, changed, same.trans found, revised⟩

theorem Edits.of_reworked (edits : s.Edits id c edited) (reworks : s.Reworks id change reworked)
    (narrow : Entry.OnSuggestion change) (num : s.book.Numbered s.usedIds)
    (clock : t.clock = s.clock) (up : t.storeUp = s.storeUp)
    (book : t.book = s.book.putRow reworked) :
    t.Edits id c { edited with extra := reworked.extra } := by
  obtain ⟨row, found, updated⟩ := edits.made
  obtain ⟨_, _, found', revised⟩ := reworks.made
  rw [found] at found'
  cases found'
  have read := revised.isRead narrow
  have eq := revised.eq (num.wall row (Book.mem_of_row? found))
  have accounts : t.book.accounts = s.book.accounts := by
    rw [book]
    rfl
  have made := updated.of_metadata accounts read
  rw [← eq, ← clock] at made
  have there : t.book.row? id = some reworked := by
    rw [book, ← reworks.id_eq]
    exact Book.row?_putRow_self (reworks.id_eq ▸ found)
  refine ⟨up.trans edits.storeUp, edits.writable, ⟨reworked, there, made⟩, ?_⟩
  exact Row.isRead_iff.2 ⟨read, (Row.isRead_iff.1 edits.read).2⟩

theorem Reworks.of_edited (reworks : s.Reworks id change reworked) (edits : s.Edits id c edited)
    (narrow : Entry.OnSuggestion change) (up : t.storeUp = s.storeUp)
    (book : t.book = s.book.putRow edited) :
    t.Reworks id change { edited with extra := reworked.extra } := by
  obtain ⟨row, found, updated⟩ := edits.made
  obtain ⟨_, _, found', revised⟩ := reworks.made
  rw [found] at found'
  cases found'
  have extra := Row.extra_of_updated updated
  obtain ⟨changed, made⟩ :=
    revised.of_columns narrow extra edits.read updated.number updated.isWall
  have there : t.book.row? id = some edited := by
    rw [book, ← edits.id_eq]
    exact Book.row?_putRow_self (edits.id_eq ▸ found)
  exact ⟨up.trans reworks.storeUp, edited, changed, there, made⟩

/-- **Work that can be done after changes can be done before them**, on a row that can be read. -/
theorem reworks_of_after (h : s.Reachable) (edits : s.Edits id c edited)
    (narrow : Entry.OnSuggestion change) (found : s.book.row? other = some row)
    (read : ∃ e, row.entry = .ok e) (up : t.storeUp = s.storeUp)
    (book : t.book = s.book.putRow edited) (reworks : t.Reworks other change reworked) :
    ∃ reworked, s.Reworks other change reworked := by
  by_cases same : other = id
  · subst same
    obtain ⟨_, found', updated⟩ := edits.made
    rw [found] at found'
    cases found'
    obtain ⟨_, _, there, revised⟩ := reworks.made
    rw [book, ← edits.id_eq, Book.row?_putRow_self (edits.id_eq ▸ found)] at there
    cases there
    have extra := Row.extra_of_updated updated
    obtain ⟨changed, made⟩ := revised.of_columns narrow extra.symm read (h.booked found).number
      (h.numbered.wall row (Book.mem_of_row? found))
    exact ⟨_, edits.storeUp, row, changed, found, made⟩
  · have apart :=
      Book.row?_putRow_of_ne s.book edited (show other ≠ edited.id from edits.id_eq ▸ same)
    refine ⟨reworked, reworks.of_row up.symm ?_⟩
    rw [book, apart]

/-- **Changes of an entry and work on a suggestion do not get in each other's way.**  Where both can
be done, each can be done after the other, and the book is then the same. -/
theorem commute_of_reworks (h : s.Reachable) (edits : s.Edits id c edited)
    (reworks : s.Reworks other change reworked) (asked : step.revision? = some (other, change)) :
    ∃ edited' reworked', (s.take step).2.Edits id c edited' ∧
      (s.take (.update id c)).2.Reworks other change reworked' ∧
      (s.book.putRow edited).putRow reworked' = (s.book.putRow reworked).putRow edited' := by
  have narrow := Step.onSuggestion asked
  have put := (take_edits edits).2
  have put' := (take_reworks asked reworks).2
  obtain ⟨up, -⟩ := scene_take (s := s) (later_edit id c)
  obtain ⟨up', clock⟩ := scene_take (s := s) (later_revision asked)
  by_cases same : other = id
  · subst same
    refine ⟨_, _, edits.of_reworked reworks narrow h.numbered clock up' put',
      reworks.of_edited edits narrow up put, ?_⟩
    rw [Book.putRow_putRow, Book.putRow_putRow]
    · exact reworks.id_eq.trans edits.id_eq.symm
    · rfl
  · have apart : id ≠ reworked.id := fun e => same (reworks.id_eq.symm.trans e.symm)
    have apart' : other ≠ edited.id := fun e => same (e.trans edits.id_eq)
    refine ⟨edited, reworked, edits.of_row up' clock (by rw [put']; rfl) ?_,
      reworks.of_row up ?_, ?_⟩
    · rw [put', Book.row?_putRow_of_ne _ _ apart]
    · rw [put, Book.row?_putRow_of_ne _ _ apart']
    · exact Book.putRow_comm _ (edits.id_eq ▸ apart)

/-- **Changes and work on suggestions do not lose what the other one did.**  Changes of an entry are
made by a step that does not fail, and the suggestion of an entry that can be read, of this one or
of another, is attached, dismissed or cleared.  Whichever is done first, the book is the same after
both, the work on the suggestion fails in both orders or in none, and the changes are made in
both. -/
theorem update_commutes (h : s.Reachable) (asked : step.revision? = some (other, change))
    (found : s.book.row? other = some row) (read : ∃ e, row.entry = .ok e)
    (done : (s.take (.update id c)).1.fails = false) :
    ((s.take (.update id c)).2.take step).2.book = ((s.take step).2.take (.update id c)).2.book ∧
    ((s.take (.update id c)).2.take step).1.fails = (s.take step).1.fails ∧
    ((s.take step).2.take (.update id c)).1.fails = false := by
  obtain ⟨edited, edits⟩ := edits_of_take done
  have put := (take_edits edits).2
  obtain ⟨up, -⟩ := scene_take (s := s) (later_edit id c)
  rcases reworks_or_fails (s := s) asked with ⟨reworked, reworks⟩ | ⟨failed, kept⟩
  · obtain ⟨edited', reworked', edits', reworks', same⟩ := commute_of_reworks h edits reworks asked
    obtain ⟨good, put'⟩ := take_reworks asked reworks
    obtain ⟨good', last⟩ := take_edits edits'
    obtain ⟨good'', last'⟩ := take_reworks asked reworks'
    refine ⟨?_, good''.trans good.symm, good'⟩
    rw [last, last', put, put', same]
  · -- what cannot be done before the changes cannot be done after them, and leaves all as it is
    obtain ⟨up', clock⟩ := scene_take (s := s) (later_revision asked)
    have edits' : (s.take step).2.Edits id c edited :=
      edits.of_row up' clock (by rw [kept]) (by rw [kept])
    obtain ⟨good', last⟩ := take_edits edits'
    have never : ¬ ∃ reworked, (s.take (.update id c)).2.Reworks other change reworked := by
      rintro ⟨reworked, reworks⟩
      have reworks := reworks_of_after h edits (Step.onSuggestion asked) found read up put reworks
      rw [(fails_iff_reworks asked).2 reworks] at failed
      cases failed
    rcases reworks_or_fails (s := (s.take (.update id c)).2) asked with reworks | ⟨failed', kept'⟩
    · exact absurd reworks never
    refine ⟨?_, failed'.trans failed.symm, good'⟩
    rw [last, kept', put, kept]

/-- the first purchase is corrected to a refund, and put off to the next statement -/
def refundFirst : Changes :=
  ⟨some "Tea back", .value (.text "5.005"), some true, .text "inflow", true⟩

/-- a purchase is made a refund and its suggestion is dismissed, in either order -/
theorem update_commutes_refund :
    let s := suggestedAs "id-3"
    let update := Step.update "id-2" refundFirst
    let dismiss := Step.dismiss "id-2" none
    s.Reachable ∧ (s.take update).1.fails = false ∧ (s.take dismiss).1.fails = false ∧
      (s.take dismiss).2.book.rows.map Row.deferred = [false, false] ∧
      ((s.take update).2.take dismiss).2.book.rows.map Row.deferred = [true, false] ∧
      ((s.take update).2.take dismiss).2.book = ((s.take dismiss).2.take update).2.book := by
  intro s update dismiss
  have reachable : s.Reachable := reachable_firstPurchase.run _
  have done : (s.take update).1.fails = false := by decide +kernel
  have found : ((s.book.row? "id-2").map fun row => row.entry.toBool) = some true := by
    decide +kernel
  obtain ⟨row, found, readable⟩ := Option.map_eq_some_iff.1 found
  have read : ∃ e, row.entry = .ok e := by
    cases read : row.entry with
    | ok e => exact ⟨e, rfl⟩
    | error =>
      rw [read] at readable
      cases readable
  have commutes := update_commutes reachable (show dismiss.revision? = _ from rfl) found read done
  exact ⟨reachable, done, by decide +kernel, by decide +kernel, by decide +kernel, commutes.1⟩

end Session

end Billfold
