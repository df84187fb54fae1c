import Billfold.Proofs.Book.Fixed
import Billfold.Proofs.Decimal.Cents
import Billfold.Proofs.Decimal.Value
import Billfold.Proofs.Session.Commute

/-!
# Directions turned over and over

A change that gives a row a direction and nothing else takes the amount as it was read, puts it on
the side of that direction and gives it to the book again.  What comes back is the same cents, so
the magnitude never moves, however often the direction is turned.

* `Step.turn`              gives a row a direction and nothing else
* `Row.editAmount_turned`  the amount on the side of a direction
* `Row.updated_turned`     what is kept of it
* `Session.ShowsCents`     a row is there that can be read, with some cents
* `ShowsCents.take_turn`, `ShowsCents.run_turns`   one turn, and any number of them
* `turned_keeps_magnitude` the amount after a turn
-/

namespace Billfold

-- powers of natural numbers are those of the core library, whatever is imported beside this module
attribute [local instance (2000)] instPowNat

open Decimal

/-! ## a direction and nothing else -/

def Nature.text : Nature → String
  | inflow => "inflow"
  | outflow => "outflow"

theorem Nature.of?_text (direction : Nature) : of? (.text direction.text) = some direction := by
  cases direction <;> rfl

def Nature.below : Nature → Bool
  | inflow => true
  | outflow => false

/-- a magnitude on the side of a direction -/
def Nature.worth (q : ℚ) : Nature → ℚ
  | inflow => -q
  | outflow => q

def Changes.turn (direction : Nature) : Changes :=
  ⟨none, .value .null, none, .text direction.text, true⟩

def Step.turn (id : String) (direction : Nature) : Step := .update id (.turn direction)

namespace Row

variable {row : Row} {negative : Bool} {k : Nat}

theorem editAmount_turn (row : Row) (direction : Nature) :
    row.editAmount (.turn direction) =
      (do
        let magnitude ← Except.liftFault (← (Amount.decimal row.amount).read).abs
        (Amount.decimal magnitude).signed (.text direction.text)) := by
  cases direction <;> rfl

theorem editAmount_turned (cents : row.amount = finite negative k (-2)) (few : digitCount k ≤ 28)
    (direction : Nature) :
    row.editAmount (.turn direction) = .ok (finite (direction.below && k != 0) k (-2)) := by
  have read : (Amount.decimal row.amount).read = .ok (finite negative k (-2)) := by
    rw [cents]
    rfl
  have magnitude : (finite negative k (-2)).abs = .ok (finite false k (-2)) := fit_cents few
  have signed : (Amount.decimal (finite false k (-2))).signed (.text direction.text) =
      .ok (finite (direction.below && k != 0) k (-2)) := by
    unfold Amount.signed
    rw [direction.of?_text]
    refine Except.bind_eq_ok.2 ⟨_, rfl, Except.liftFault_eq_ok.2 ?_⟩
    cases direction with
    | outflow => rfl
    | inflow => exact fit_cents few
  rw [editAmount_turn]
  exact Except.bind_eq_ok.2 ⟨_, read, Except.bind_eq_ok.2 ⟨_, Except.liftFault_eq_ok.2 magnitude,
    signed⟩⟩

/-- an amount of the same cents takes the place of the one that was booked: the old amount stays, or
the new one comes back as it is -/
theorem over?_cents (booked : row.IsBooked) (wall : row.IsWall)
    (cents : row.amount = finite negative k (-2)) (few : digitCount k ≤ 28) (sign : Bool) :
    ∃ b, { row with amount := finite (sign && k != 0) k (-2) }.over? row =
        some { row with amount := finite b k (-2) } ∧ (k ≠ 0 → b = sign) := by
  obtain ⟨x, back⟩ := booked
  rw [cents] at back
  have again := settle?_again back few (sign && k != 0)
  have wall : row.lockedAt.map Instant.wall = row.lockedAt := wall
  unfold over? settled?
  simp only [again, Option.map_some, wall, ite_self]
  by_cases same : (finite (sign && k != 0) k (-2)).sameValue row.amount = true
  · refine ⟨negative, ?_, fun some => ?_⟩
    · rw [if_pos same, cents]
    · rw [cents] at same
      have side := (Bool.and_eq_true_iff.1 same).2
      rw [beq_eq_false_iff_ne.2 some, Bool.or_false, beq_iff_eq, bne_iff_ne.2 some,
        Bool.and_true] at side
      exact side.symm
  · refine ⟨sign && k != 0 && k != 0, ?_, fun some => ?_⟩
    · rw [if_neg same]
    · rw [bne_iff_ne.2 some, Bool.and_true, Bool.and_true]

/-- **What a turn makes of a row**: the same row with the same cents, on the side of the direction
unless they are none. -/
theorem updated_turned (b : Book) (now : Instant) (booked : row.IsBooked) (wall : row.IsWall)
    (cents : row.amount = finite negative k (-2)) (few : digitCount k ≤ 28) (direction : Nature) :
    ∃ sign, row.Updated b now (.turn direction) { row with amount := finite sign k (-2) } ∧
      (k ≠ 0 → sign = direction.below) := by
  obtain ⟨sign, inPlace, side⟩ := over?_cents booked wall cents few direction.below
  have edit : row.edit (.turn direction) =
      .ok { row with amount := finite (direction.below && k != 0) k (-2) } :=
    Except.bind_eq_ok.2 ⟨_, editAmount_turned cents few direction, rfl⟩
  exact ⟨sign, .kept edit rfl inPlace, side⟩

theorem exists_cents {e : Entry} (booked : row.IsBooked) (read : row.entry = .ok e) :
    ∃ negative k, row.amount = finite negative k (-2) ∧ digitCount k ≤ 28 ∧
      e.amount = row.amount := by
  obtain ⟨x, back⟩ := booked
  obtain ⟨metadata, reads⟩ := reads_of_entry read
  have cents := reads.amount
  cases value : row.amount with
  | finite negative k f =>
    rw [value] at back cents
    obtain ⟨rfl, -⟩ := exists_standard back
    rw [toCents_eq] at cents
    split at cents
    · next few => exact ⟨negative, k, rfl, few, (Except.ok.inj cents).symm⟩
    · cases cents
  | infinite => rw [value] at cents; cases cents
  | nan signaling negative payload =>
    rw [value] at cents back
    have := number_of_settle? back
    cases this

end Row

/-! ## turns of a session -/

namespace Session

variable {s : Session} {id : String} {k : Nat}

/-- a row is there that is read as an entry with some cents, on one side of zero -/
def ShowsCents (s : Session) (id : String) (e : Entry) (sign : Bool) (k : Nat) : Prop :=
  ∃ row, s.book.row? id = some row ∧ row.entry = .ok e ∧ row.amount = finite sign k (-2) ∧
    e.amount = finite sign k (-2)

/-- **A turn is made, and the row then shows the same cents on the side of the direction.** -/
theorem ShowsCents.take_turn {e : Entry} {negative : Bool} (h : s.Reachable)
    (was : s.ShowsCents id e negative k) (direction : Nature) :
    (s.take (.turn id direction)).1.fails = false ∧
      ∃ e' sign, (s.take (.turn id direction)).1.result = .ok (.entry e') ∧
        (s.take (.turn id direction)).2.ShowsCents id e' sign k ∧
        (k ≠ 0 → sign = direction.below) := by
  obtain ⟨row, found, read, cents, -⟩ := was
  have booked := h.booked found
  have wall := h.numbered.wall row (Book.mem_of_row? found)
  have few : digitCount k ≤ 28 := by
    obtain ⟨_, _, cents', few, -⟩ := Row.exists_cents booked read
    cases cents.symm.trans cents'
    exact few
  obtain ⟨sign, updated, side⟩ := Row.updated_turned s.book s.clock booked wall cents few direction
  have rounded : (finite sign k (-2)).toCents = .ok (finite sign k (-2)) :=
    (toCents_eq sign k).trans (if_pos few)
  obtain ⟨e', read'⟩ := (Row.isRead_iff (r := { row with amount := finite sign k (-2) })).2
    ⟨(Row.isRead_iff.1 ⟨e, read⟩).1, _, rounded⟩
  have edits : s.Edits id (.turn direction) { row with amount := finite sign k (-2) } :=
    ⟨h.storeUp found, rfl, ⟨row, found, updated⟩, e', read'⟩
  obtain ⟨result, put⟩ := result_edits edits
  refine ⟨(take_edits edits).1, e', sign, ?_, ⟨_, ?_, read', rfl, ?_⟩, side⟩
  · show (s.take (.update id (.turn direction))).1.result = _
    rw [result, read']
    rfl
  · show (s.take (.update id (.turn direction))).2.book.row? id = _
    rw [put, ← edits.id_eq]
    exact Book.row?_putRow_self (edits.id_eq ▸ found)
  · obtain ⟨metadata, reads⟩ := Row.reads_of_entry read'
    exact Except.ok.inj (reads.amount.symm.trans rounded)

/-- **The cents stay the same through any number of turns.** -/
theorem ShowsCents.run_turns {e : Entry} {negative : Bool} (h : s.Reachable)
    (was : s.ShowsCents id e negative k) (directions : List Nature) :
    ∃ e' sign, (s.run (directions.map (Step.turn id))).2.ShowsCents id e' sign k := by
  induction directions generalizing s e negative with
  | nil => exact ⟨e, negative, was⟩
  | cons direction rest ih =>
    obtain ⟨-, e', sign, -, now, -⟩ := was.take_turn h direction
    exact ih (h.take (.turn id direction)) now

/-- **Turning the direction of a row never moves its magnitude.**  A row that can be read is given
one direction after the other, and nothing else.  Each of these changes is made, and the amount of
the entry that it gives, which is the one that the row is read as from then on, has the magnitude
that the row had at first, on the side of the direction. -/
theorem turned_keeps_magnitude {row : Row} {e : Entry} (h : s.Reachable)
    (found : s.book.row? id = some row) (read : row.entry = .ok e) (directions : List Nature)
    (direction : Nature) :
    let t := (s.run (directions.map (Step.turn id))).2
    (t.take (.turn id direction)).1.fails = false ∧
      ∃ row' e', (t.take (.turn id direction)).2.book.row? id = some row' ∧ row'.entry = .ok e' ∧
        (t.take (.turn id direction)).1.result = .ok (.entry e') ∧
        e'.amount.value = direction.worth |e.amount.value| := by
  intro t
  obtain ⟨negative, k, cents, few, same⟩ := Row.exists_cents (h.booked found) read
  have was : s.ShowsCents id e negative k := ⟨row, found, read, cents, same.trans cents⟩
  obtain ⟨_, _, before⟩ := was.run_turns h directions
  obtain ⟨made, e', sign, result, ⟨row', found', read', -, cents'⟩, side⟩ :=
    before.take_turn (h.run _) direction
  refine ⟨made, row', e', found', read', result, ?_⟩
  rw [same, cents, cents', abs_value]
  by_cases none : k = 0
  · subst none
    rw [value_zero, Nat.cast_zero, zero_mul]
    cases direction <;> norm_num [Nature.worth]
  · rw [side none, value_finite]
    cases direction <;> norm_num [Nature.worth, Nature.below, Decimal.side]

/-- a purchase is turned to money in and back, and to money in once more -/
theorem turned_keeps_magnitude_purchase :
    let t := (firstPurchase.run ([Nature.inflow, .outflow].map (Step.turn "id-2"))).2
    (t.take (.turn "id-2" .inflow)).1.fails = false ∧
      ∃ e', (t.take (.turn "id-2" .inflow)).1.result = .ok (.entry e') ∧
        e'.amount.value = -9999 / 100 := by
  have shown : ((firstPurchase.book.row? "id-2").map fun row =>
      row.entry.toOption.map Entry.amount) = some (some (.finite false 9999 (-2))) := by
    decide +kernel
  obtain ⟨row, found, read⟩ := Option.map_eq_some_iff.1 shown
  obtain ⟨e, read, amount⟩ := Option.map_eq_some_iff.1 read
  have read : row.entry = .ok e := by
    cases entry : row.entry with
    | ok e' => rw [entry] at read; exact congrArg Except.ok (Option.some.inj read)
    | error => rw [entry] at read; cases read
  obtain ⟨made, _, e', -, -, result, worth⟩ :=
    turned_keeps_magnitude reachable_firstPurchase found read [.inflow, .outflow] .inflow
  refine ⟨made, e', result, ?_⟩
  rw [worth, amount, abs_value]
  norm_num [Nature.worth]

end Session

end Billfold
