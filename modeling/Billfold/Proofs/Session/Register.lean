import Billfold.Proofs.Entry.Register
import Billfold.Proofs.Session.Commute
import Billfold.Proofs.Session.Duplicate

/-!
# The suggestion as a register

The suggestion of a row is what was written last: attached over another, cleared or dismissed twice,
it is as if only the last had been done, up to equal metadata.  What clearing answers is what is
read of the row afterwards; what dismissing answers is so too, unless the map that it would write
equals the stored one, which the book then keeps.

* `Session.Reads`            a row that is read, with its metadata as an object
* `Reads.revise`             work on its suggestion
* `Session.LeaveSame`        two runs that leave the row with equal metadata
* `Session.AnswersAsRead`    a step that answers what is read of the row afterwards
* `suggestion_register`      the laws of a register
* `dismissed_by_number`      a dismissal that is answered and not kept
-/

namespace Billfold

open Act

namespace Ledger

variable {s : Session} {id : String} {row : Row} {e : Entry} {why : Error}
variable {change : Entry → Except Error Entry}

theorem exec_revise_of_error (up : s.storeUp = true) (found : s.book.row? id = some row)
    (read : row.entry = .ok e) (refused : change e = .error why) :
    (revise id change).exec s = (.error why, s) := by
  have given : (ofFault row.entry).exec s = (.ok e, s) := by
    rw [read]
    rfl
  have asked : (ofResult (change e)).exec s = (.error why, s) := by
    rw [refused]
    rfl
  unfold revise
  rw [exec_transact, exec_bind_of_ok (exec_rowFor up found), exec_bind_of_ok given, exec_bind,
    asked]

end Ledger

namespace Session

variable {s : Session} {step : Step} {id : String} {row settled : Row} {e changed : Entry}
variable {fields : Fields} {change : Entry → Except Error Entry} {why : Error}

theorem result_refused (asked : step.revision? = some (id, change)) (up : s.storeUp = true)
    (found : s.book.row? id = some row) (read : row.entry = .ok e)
    (refused : change e = .error why) :
    (s.take step).1.result = .error why ∧ (s.take step).2.book = s.book := by
  have taken := take_exec s step
  have revise := Ledger.exec_revise_of_error (s := { s with log := [] }) up found read refused
  have ran : step.act.exec { s with log := [] } = (.error why, { s with log := [] }) := by
    rcases Step.act_of_revision asked with same | ⟨request, how, same⟩
    · rw [same, exec_map, revise]
      rfl
    · unfold Ledger.told at same
      rw [same, exec_map, exec_bind, revise]
      rfl
  rw [ran] at taken
  obtain ⟨result, after⟩ := Prod.mk.inj taken
  exact ⟨result.symm, by rw [← after]⟩

/-! ## a row that is read -/

/-- a row that is read, with the metadata map that it stands for; each key in it is there once -/
structure Reads (s : Session) (id : String) (row : Row) (fields : Fields) (e : Entry) : Prop where
  reachable : s.Reachable
  found : s.book.row? id = some row
  map : Metadata.ofValue row.extra = .ok fields
  proper : row.extra.Proper
  read : row.entry = .ok e

namespace Reads

theorem keeps (h : s.Reads id row fields e) : e.Keeps fields := Row.keeps_of_map h.map h.read

theorem each (h : s.Reads id row fields e) : fields.Each Json.Proper :=
  Metadata.each_ofValue h.map h.proper

theorem revised (h : s.Reads id row fields e) (made : change e = .ok changed) :
    row.Revised change changed (row.rewritten changed.writeExtra) := by
  refine ⟨⟨e, h.read, made⟩, ?_⟩
  exact Row.over?_extra (h.reachable.booked h.found).number
    (h.reachable.numbered.wall row (Book.mem_of_row? h.found)) _

/-- **Work on the suggestion of a row that is read** answers with the entry that it makes, and its
map is written; the row is then read with another suggestion, and else as before. -/
theorem revise (h : s.Reads id row fields e) (asked : step.revision? = some (id, change))
    (made : change e = .ok changed) (proper : (Json.object changed.writeExtra).Proper) :
    (s.take step).1.result = .ok (.entry changed) ∧
      ∃ now : Fields, (s.take step).2.Reads id (row.rewritten changed.writeExtra) now
        { e with suggestion := Suggestion.read now } := by
  obtain ⟨result, put⟩ :=
    result_reworks asked (h.reachable.storeUp h.found) h.found (h.revised made)
  have only := Step.eq_of_revision asked made
  obtain ⟨now, map, read⟩ := Row.entry_of_rewritten h.map h.read changed.suggestion
  rw [← only] at map read
  refine ⟨result, now, h.reachable.take step, ?_, map, Row.proper_rewritten h.proper proper, read⟩
  have here : (row.rewritten changed.writeExtra).id = id := show row.id = id from
    Book.id_of_row? h.found
  rw [put, ← here]
  exact Book.row?_putRow_self (here ▸ h.found)

theorem proper_attach (h : s.Reads id row fields e) {a : Suggestion} (proper : a.Proper) :
    (Json.object (e.attach a).writeExtra).Proper := by
  refine h.keeps.proper h.each fun g given => ?_
  cases given
  exact proper.stored

theorem proper_dismiss (h : s.Reads id row fields e) {g : Suggestion}
    (suggested : e.suggestion = some g) :
    (Json.object (e.attach { g with dismissed := true }).writeExtra).Proper := by
  refine h.keeps.proper h.each fun g' given => ?_
  cases given
  exact h.keeps.proper_stored h.each suggested true

theorem attach (h : s.Reads id row fields e) {a : Suggestion} (proper : a.Proper) :
    (s.take (.attach id a)).1.result = .ok (.entry (e.attach a)) ∧
      ∃ now : Fields, (s.take (.attach id a)).2.Reads id (row.rewritten (e.attach a).writeExtra)
        now { e with suggestion := Suggestion.read now } := by
  exact h.revise (show (Step.attach id a).revision? = _ from rfl) rfl (h.proper_attach proper)

theorem clear (h : s.Reads id row fields e) (request : Option String) :
    (s.take (.clear id request)).1.result = .ok (.entry e.clear) ∧
      ∃ now : Fields,
        (s.take (.clear id request)).2.Reads id (row.rewritten e.clear.writeExtra) now e.clear := by
  obtain ⟨result, now, reads⟩ := h.revise (show (Step.clear id request).revision? = _ from rfl) rfl
    (h.keeps.proper_clear h.each)
  refine ⟨result, now, reads.reachable, reads.found, reads.map, reads.proper, ?_⟩
  exact Row.entry_of_cleared h.map h.read h.each

theorem dismiss (h : s.Reads id row fields e) (request : Option String) {g : Suggestion}
    (suggested : e.suggestion = some g) :
    (s.take (.dismiss id request)).1.result =
        .ok (.entry (e.attach { g with dismissed := true })) ∧
      ∃ now : Fields, (s.take (.dismiss id request)).2.Reads id
        (row.rewritten (e.attach { g with dismissed := true }).writeExtra) now
        { e with suggestion := Suggestion.read now } := by
  have made : e.dismiss = .ok (e.attach { g with dismissed := true }) := by
    unfold Entry.dismiss
    rw [suggested]
    rfl
  exact h.revise (show (Step.dismiss id request).revision? = _ from rfl) made
    (h.proper_dismiss suggested)

/-- A row whose suggestion is told dismissed has one that differs in no more than that: it says so
too, or the row stayed as it was. -/
theorem dismissed (h : s.Reads id row fields e) (request : Option String) {g : Suggestion}
    (suggested : e.suggestion = some g) :
    ∃ (now : Fields) (g' : Suggestion), (s.take (.dismiss id request)).2.Reads id
        (row.rewritten (e.attach { g with dismissed := true }).writeExtra) now (e.attach g') ∧
      Suggestion.Alike { g' with dismissed := true } { g with dismissed := true } ∧
      (g'.dismissed = true ↔ g.dismissed = true ∨
        ¬(Json.object (e.attach { g with dismissed := true }).writeExtra).same row.extra =
          true) := by
  obtain ⟨-, now, reads⟩ := h.dismiss request suggested
  by_cases same : (Json.object (e.attach { g with dismissed := true }).writeExtra).same
      row.extra = true
  · refine ⟨fields, g, ⟨reads.reachable, reads.found, ?_, reads.proper, ?_⟩, .refl _, ?_⟩
    · rw [Row.rewritten_of_same same]
      exact h.map
    · rw [Row.rewritten_of_same same, h.read, Entry.attach, ← suggested]
    · exact (or_iff_left (not_not_intro same)).symm
  · have read := Row.entry_of_written h.map h.read same
    have faithful : (Suggestion.ofFields (Suggestion.stored { g with dismissed := true })).Alike
        { g with dismissed := true } := (h.keeps.faithful suggested).dismissed true
    refine ⟨now, _, ⟨reads.reachable, reads.found, reads.map, reads.proper, read⟩, ?_, ?_⟩
    · rw [Suggestion.dismissed_self faithful.dismissed]
      exact faithful
    · exact iff_of_true faithful.dismissed (.inr same)

theorem dismiss_none (h : s.Reads id row fields e) (request : Option String)
    (unsuggested : e.suggestion = none) :
    (s.take (.dismiss id request)).1.result = .error (.notFound (.suggestion (some id))) ∧
      (s.take (.dismiss id request)).2.Reads id row fields e := by
  have refused : e.dismiss = .error (.notFound (.suggestion (some id))) := by
    unfold Entry.dismiss
    rw [unsuggested, Row.id_of_entry h.read, Book.id_of_row? h.found]
  obtain ⟨result, book⟩ := result_refused (show (Step.dismiss id request).revision? = _ from rfl)
    (h.reachable.storeUp h.found) h.found h.read refused
  exact ⟨result, h.reachable.take _, by rw [book]; exact h.found, h.map, h.proper, h.read⟩

end Reads

/-! ## the laws -/

/-- two runs leave the row with the same columns and equal metadata -/
def LeaveSame (s : Session) (id : String) (steps steps' : List Step) : Prop :=
  ∃ r r', (s.run steps).2.book.row? id = some r ∧ (s.run steps').2.book.row? id = some r' ∧
    r.SameAs r'

/-- a step answers with an entry, and the row is read afterwards as one like it -/
def AnswersAsRead (s : Session) (id : String) (step : Step) : Prop :=
  ∃ c c' r, (s.take step).1.result = .ok (.entry c) ∧ (s.take step).2.book.row? id = some r ∧
    r.entry = .ok c' ∧ c.Alike c'

/-- the same failure, or entries that nobody can tell apart -/
def SameAnswer (x y : Except Error Reply) : Prop :=
  (∃ why, x = .error why ∧ y = .error why) ∨
    ∃ c c', x = .ok (.entry c) ∧ y = .ok (.entry c') ∧ c.Alike c'

section
variable {a b g : Suggestion} {p q : Option String}

theorem attach_attach (h : s.Reads id row fields e) (proper_a : a.Proper) (proper_b : b.Proper) :
    s.LeaveSame id [.attach id a, .attach id b] [.attach id b] := by
  obtain ⟨-, _, first⟩ := h.attach proper_a
  obtain ⟨-, _, second⟩ := first.attach proper_b
  obtain ⟨-, _, alone⟩ := h.attach proper_b
  refine ⟨_, _, second.found, alone.found, ?_⟩
  exact Row.rewritten_rewritten h.proper (h.proper_attach proper_a) (h.proper_attach proper_b)

theorem attach_clear (h : s.Reads id row fields e) (proper : a.Proper) :
    s.LeaveSame id [.attach id a, .clear id p] [.clear id p] := by
  obtain ⟨-, _, first⟩ := h.attach proper
  obtain ⟨-, _, second⟩ := first.clear p
  obtain ⟨-, _, alone⟩ := h.clear p
  refine ⟨_, _, second.found, alone.found, ?_⟩
  exact Row.rewritten_rewritten h.proper (h.proper_attach proper) (h.keeps.proper_clear h.each)

theorem dismiss_clear (h : s.Reads id row fields e) :
    s.LeaveSame id [.dismiss id p, .clear id q] [.clear id q] := by
  obtain ⟨-, _, alone⟩ := h.clear q
  cases suggested : e.suggestion with
  | none =>
    -- nothing was dismissed, and the row is cleared as it was
    obtain ⟨-, first⟩ := h.dismiss_none p suggested
    obtain ⟨-, _, second⟩ := first.clear q
    exact ⟨_, _, second.found, alone.found, .refl alone.proper⟩
  | some g =>
    obtain ⟨-, _, first⟩ := h.dismiss p suggested
    obtain ⟨-, _, second⟩ := first.clear q
    refine ⟨_, _, second.found, alone.found, ?_⟩
    exact Row.rewritten_rewritten h.proper (h.proper_dismiss suggested)
      (h.keeps.proper_clear h.each)

theorem clear_clear (h : s.Reads id row fields e) :
    (s.run [.clear id p, .clear id q]).2.book.row? id = (s.run [.clear id p]).2.book.row? id := by
  obtain ⟨-, _, first⟩ := h.clear p
  obtain ⟨-, _, second⟩ := first.clear q
  have twice : e.clear.clear.writeExtra = e.clear.writeExtra := rfl
  refine second.found.trans ?_
  rw [twice, Row.rewritten_self]
  exact first.found.symm

/-- **Dismissed twice is dismissed once**, with the same answer. -/
theorem dismiss_dismiss (h : s.Reads id row fields e) :
    (s.run [.dismiss id p, .dismiss id q]).2.book.row? id =
        (s.run [.dismiss id p]).2.book.row? id ∧
      SameAnswer ((s.take (.dismiss id p)).2.take (.dismiss id q)).1.result
        (s.take (.dismiss id p)).1.result := by
  cases suggested : e.suggestion with
  | none =>
    obtain ⟨result, first⟩ := h.dismiss_none p suggested
    obtain ⟨again, second⟩ := first.dismiss_none q suggested
    exact ⟨second.found.trans first.found.symm, .inl ⟨_, again, result⟩⟩
  | some g =>
    obtain ⟨result, -⟩ := h.dismiss p suggested
    obtain ⟨now, g', first, alike, -⟩ := h.dismissed p suggested
    obtain ⟨again, _, second⟩ := first.dismiss q rfl
    have same : ((e.attach g').attach { g' with dismissed := true }).writeExtra =
        (e.attach { g with dismissed := true }).writeExtra := e.writeExtra_attach alike.stored
    refine ⟨second.found.trans ?_, .inr ⟨_, _, again, result, e.alike_attach alike⟩⟩
    rw [same, Row.rewritten_self]
    exact first.found.symm

theorem dismiss_of_cleared (h : s.Reads id row fields e) :
    ((s.take (.clear id p)).2.take (.dismiss id q)).1.result =
      .error (.notFound (.suggestion (some id))) := by
  obtain ⟨-, _, first⟩ := h.clear p
  exact (first.dismiss_none q rfl).1

theorem clear_answersAsRead (h : s.Reads id row fields e) : s.AnswersAsRead id (.clear id p) := by
  obtain ⟨result, _, first⟩ := h.clear p
  exact ⟨_, _, _, result, first.found, first.read, rfl, .none⟩

/-- **A dismissal is answered as it is read afterwards**, unless the row stays as it was though its
suggestion was not dismissed. -/
theorem dismiss_answersAsRead_iff (h : s.Reads id row fields e)
    (suggested : e.suggestion = some g) :
    s.AnswersAsRead id (.dismiss id p) ↔ g.dismissed = true ∨
      ¬(Json.object (e.attach { g with dismissed := true }).writeExtra).same row.extra = true := by
  obtain ⟨result, -⟩ := h.dismiss p suggested
  obtain ⟨now, g', first, alike, told⟩ := h.dismissed p suggested
  rw [← told]
  constructor
  · rintro ⟨c, c', r, answer, found, read, alike⟩
    cases result.symm.trans answer
    cases first.found.symm.trans found
    cases first.read.symm.trans read
    cases alike.suggestion with
    | some alike => exact alike.dismissed.symm
  · intro marked
    rw [Suggestion.dismissed_self marked] at alike
    exact ⟨_, _, _, result, first.found, first.read, e.alike_attach alike.symm⟩

/-- **The suggestion of a row is a register**: what is written last counts, what was cleared is
gone, and the answers are what is read afterwards but for a dismissal that the stored map equals. -/
theorem suggestion_register (h : s.Reads id row fields e) (proper_a : a.Proper)
    (proper_b : b.Proper) (p q : Option String) :
    s.LeaveSame id [.attach id a, .attach id b] [.attach id b] ∧
    s.LeaveSame id [.attach id a, .clear id p] [.clear id p] ∧
    s.LeaveSame id [.dismiss id p, .clear id q] [.clear id q] ∧
    (s.run [.clear id p, .clear id q]).2.book.row? id =
      (s.run [.clear id p]).2.book.row? id ∧
    (s.run [.dismiss id p, .dismiss id q]).2.book.row? id =
      (s.run [.dismiss id p]).2.book.row? id ∧
    SameAnswer ((s.take (.dismiss id p)).2.take (.dismiss id q)).1.result
      (s.take (.dismiss id p)).1.result ∧
    ((s.take (.clear id p)).2.take (.dismiss id q)).1.result =
      .error (.notFound (.suggestion (some id))) ∧
    s.AnswersAsRead id (.clear id p) ∧
    ∀ g, e.suggestion = some g → (s.AnswersAsRead id (.dismiss id p) ↔ g.dismissed = true ∨
      ¬(Json.object (e.attach { g with dismissed := true }).writeExtra).same row.extra = true) := by
  obtain ⟨row_twice, answer_twice⟩ := dismiss_dismiss (p := p) (q := q) h
  refine ⟨attach_attach h proper_a proper_b, attach_clear h proper_a, dismiss_clear h,
    clear_clear h, row_twice, answer_twice, dismiss_of_cleared h, clear_answersAsRead h, ?_⟩
  intro g suggested
  exact dismiss_answersAsRead_iff h suggested

end

/-! ## a dismissal stored as a number -/

theorem read_of_told {shape : Json → Bool}
    (h : (s.book.row? id).any (fun row => shape row.extra && row.entry.toBool) = true) :
    ∃ row e, s.book.row? id = some row ∧ shape row.extra = true ∧ row.entry = .ok e := by
  obtain ⟨row, found, told⟩ := (Option.any_eq_true _ _).1 h
  obtain ⟨shape, readable⟩ := Bool.and_eq_true_iff.1 told
  cases read : row.entry with
  | ok e => exact ⟨row, e, found, shape, read⟩
  | error =>
    rw [read] at readable
    cases readable

/-- metadata in which a suggestion is dismissed by a number, which dismisses nothing -/
def byNumber : Fields :=
  [(Suggestion.key, .object [("entry_id", .text "id-9"), ("dismissed", .int 1)])]

def marked : Session := (firstPurchase.take (.editRow "id-2" [.extra (.object byNumber)])).2

def isByNumber : Json → Bool
  | .object [(k, .object [(k₁, .text t), (k₂, .int n)])] =>
    decide (k = Suggestion.key ∧ k₁ = "entry_id" ∧ t = "id-9" ∧ k₂ = "dismissed" ∧ n = 1)
  | _ => false

theorem eq_of_isByNumber {x : Json} (h : isByNumber x = true) : x = .object byNumber := by
  unfold isByNumber at h
  split at h
  · obtain ⟨rfl, rfl, rfl, rfl, rfl⟩ := of_decide_eq_true h
    rfl
  · cases h

theorem reads_marked :
    ∃ row e, row.extra = .object byNumber ∧ marked.Reads "id-2" row byNumber e := by
  have told : (marked.book.row? "id-2").any (fun row => isByNumber row.extra && row.entry.toBool) =
      true := by decide +kernel
  obtain ⟨row, e, found, shape, read⟩ := read_of_told told
  have extra := eq_of_isByNumber shape
  refine ⟨row, e, extra, reachable_firstPurchase.take _, found, ?_, ?_, read⟩
  · rw [extra]
    rfl
  · rw [extra]
    exact ⟨by decide, ⟨by decide, trivial, trivial, trivial⟩, trivial⟩

theorem suggestion_register_marked : ∃ row e, marked.Reads "id-2" row byNumber e ∧
    (suggesting "id-3").Proper ∧ (suggesting "id-4").Proper ∧
    marked.LeaveSame "id-2" [.attach "id-2" (suggesting "id-3"), .attach "id-2" (suggesting "id-4")]
      [.attach "id-2" (suggesting "id-4")] := by
  obtain ⟨row, e, -, reads⟩ := reads_marked
  have third : (suggesting "id-3").Proper := ⟨trivial, by decide, trivial⟩
  have fourth : (suggesting "id-4").Proper := ⟨trivial, by decide, trivial⟩
  exact ⟨row, e, reads, third, fourth, (suggestion_register reads third fourth none none).1⟩

/-- **A dismissal that equals what is stored is answered and not kept**: one equals `true`, and so
the row stays as it was. -/
theorem dismissed_by_number : marked.Reachable ∧
    ∃ row e g, marked.book.row? "id-2" = some row ∧ row.entry = .ok e ∧ e.suggestion = some g ∧
      (marked.take (.dismiss "id-2" none)).1.result =
        .ok (.entry (e.attach { g with dismissed := true })) ∧
      (∃ now e' g', (marked.take (.dismiss "id-2" none)).2.book.row? "id-2" = some now ∧
        now.entry = .ok e' ∧ e'.suggestion = some g' ∧ g'.dismissed = false) ∧
      ¬ marked.AnswersAsRead "id-2" (.dismiss "id-2" none) := by
  obtain ⟨row, e, extra, reads⟩ := reads_marked
  obtain ⟨g, suggested, undismissed, same⟩ : ∃ g, e.suggestion = some g ∧ g.dismissed = false ∧
      (Json.object (e.attach { g with dismissed := true }).writeExtra).same row.extra = true := by
    have untagged : e.tag = none := (Except.ok.inj reads.keeps.tag).symm
    rw [extra, reads.keeps.suggestion]
    unfold Entry.attach Entry.writeExtra
    dsimp only
    rw [untagged, reads.keeps.extra]
    exact ⟨_, rfl, rfl, by decide +kernel⟩
  obtain ⟨result, now, after⟩ := reads.dismiss none suggested
  have kept := after.found
  rw [Row.rewritten_of_same same] at kept
  refine ⟨reads.reachable, row, e, g, reads.found, reads.read, suggested, result,
    ⟨row, e, g, kept, reads.read, suggested, undismissed⟩, fun answers => ?_⟩
  rcases (dismiss_answersAsRead_iff reads suggested).1 answers with marked | differ
  · rw [undismissed] at marked
    cases marked
  · exact differ same

end Session

end Billfold
