import Mathlib.Control.Monad.Basic
import Billfold.Proofs.Card.Cycle

/-!
# Windows and the charges that are paid

The window of a due date runs from the day after the cutoff of the month before to the month's own
cutoff.  A charge is told its bill another way: it looks at the cutoff of its own month only, and
leaves that month's bill on the cutoff itself.  Here is where the two part.

* `paid_eq_iff`          the bill of a charge, by its month and its own cutoff
* `Window.has_iff`       the days of a window, by the due days of two months
* `Window.Parts`         the charges about which window and bill differ
* `window_pays_iff`      they differ about no other
-/

namespace Billfold

def Window.Has (w : Window) (d : Date) : Prop := w.first ≤ d ∧ d ≤ w.last

instance (w : Window) (d : Date) : Decidable (w.Has d) :=
  inferInstanceAs (Decidable (w.first ≤ d ∧ d ≤ w.last))

/-- the charges about which a window and the bill differ; `months` counts from the month of the
charge to that of the bill -/
def Window.Parts (w : Window) (charged : Date) (months : Int) : Prop :=
  -- on the last day of the window a charge has left the month's bill
  (months = 0 ∧ charged = w.last) ∨
  -- the next bill takes a charge of that day, and one that lies behind its own cutoff
  (months = 1 ∧ (charged.number + 1 = w.first.number ∨ w.last < charged)) ∨
  -- cutoffs more than a month back: the window holds charges that were paid long before
  (2 ≤ months ∧ w.Has charged)

section
variable {p : Policy} {day : DueDay} {d charged due paid : Date} {month : Option Date} {w : Window}

/-- **The bill of a charge that is not deferred**: the next month's from the cutoff of its own month
on, its own month's before. -/
theorem paid_eq_iff (h : p.dueDay = some day)
    (hr : resolveDue (some p) ⟨charged, false, month⟩ = .ok (some paid)) :
    paid = day.inMonthOf d ↔
      (d.inMonth = charged.inMonth.shift 1 ∧
        (day.inMonthOf charged).number ≤ charged.number + p.offset) ∨
      (d.inMonth = charged.inMonth ∧
        charged.number + p.offset < (day.inMonthOf charged).number) := by
  rcases resolveDue_cases h hr with ⟨hf, -⟩ | ⟨-, close, hc, hpaid⟩
  · cases hf
  obtain ⟨_, e, hn⟩ := Policy.number_of_cutoff h hc
  cases e
  rcases hpaid with ⟨le, next, hnext, e⟩ | ⟨lt, e⟩
  · cases e
    have hm := (Date.inMonth_of_addMonths hnext).1
    simp only at hm
    rw [Date.le_def] at le
    simp only at le hn
    rw [day.inMonthOf_eq_iff, hm]
    constructor
    · intro hd
      exact .inl ⟨hd.symm, by omega⟩
    · rintro (⟨hd, -⟩ | ⟨-, lt⟩)
      · exact hd.symm
      · omega
  · cases e
    rw [Date.lt_def] at lt
    simp only at lt hn
    rw [day.inMonthOf_eq_iff]
    constructor
    · intro hd
      exact .inr ⟨hd.symm, by omega⟩
    · rintro (⟨-, le⟩ | ⟨hd, -⟩)
      · omega
      · exact hd.symm

theorem Window.has_iff (h : p.dueDay = some day) (hw : p.window (day.inMonthOf d) = .ok (some w))
    (charged : Date) :
    ∃ before : Date, before.inMonth = d.inMonth.shift (-1) ∧
      w.last.number + p.offset = (day.inMonthOf d).number ∧
      w.first.number + p.offset = (day.inMonthOf before).number + 1 ∧
      (w.Has charged ↔ (day.inMonthOf before).number < charged.number + p.offset ∧
        charged.number + p.offset ≤ (day.inMonthOf d).number) := by
  obtain ⟨before, v, e, hb, hl, hf⟩ := Policy.ends_of_window h hw
  cases e
  refine ⟨before, (Date.inMonth_of_addMonths hb).1, hl, hf, ?_⟩
  unfold Window.Has
  rw [Date.le_def, Date.le_def]
  omega

/-- **A window holds exactly the charges that are paid on its due date, but for those that
`Window.Parts` names**: the charge of a cutoff's own day, and those that follow a cutoff of a month
after theirs. -/
theorem window_pays_iff (h : p.dueDay = some day) (hd : p.paymentDue d = .ok (some due))
    (hw : p.window due = .ok (some w))
    (hr : resolveDue (some p) ⟨charged, false, month⟩ = .ok (some paid)) :
    (paid = due ↔ w.Has charged) ↔ ¬ w.Parts charged (d.inMonth.index - charged.inMonth.index) := by
  cases Policy.eq_of_paymentDue h hd
  have pays := paid_eq_iff (d := d) h hr
  obtain ⟨before, hm, hl, hf, has⟩ := Window.has_iff h hw charged
  unfold Window.Parts
  rw [pays, has, Date.lt_def, Date.eq_iff_number]
  have hbefore : before.inMonth.index = d.inMonth.index - 1 := congrArg Month.index hm
  have hnext : d.inMonth = charged.inMonth.shift 1 ↔ d.inMonth.index = charged.inMonth.index + 1 :=
    ⟨congrArg Month.index, Month.ext_index⟩
  have hsame : d.inMonth = charged.inMonth ↔ d.inMonth.index = charged.inMonth.index :=
    ⟨congrArg Month.index, Month.ext_index⟩
  rw [hnext, hsame]
  -- where the bill's month stands to the charge's decides which of the due days are known
  rcases Int.lt_trichotomy d.inMonth.index charged.inMonth.index with lt | eq | gt
  · have : day.inMonthOf d < charged := Date.lt_of_inMonth_lt lt
    rw [Date.lt_def] at this
    omega
  · have : day.inMonthOf before < charged :=
      Date.lt_of_inMonth_lt (by show before.inMonth.index < _; omega)
    have same := congrArg Date.number (day.inMonthOf_congr (hsame.2 eq))
    rw [Date.lt_def] at this
    omega
  · have after : charged < day.inMonthOf d := Date.lt_of_inMonth_lt gt
    rw [Date.lt_def] at after
    rcases Int.lt_or_eq_of_le (Int.add_one_le_of_lt gt) with far | near
    · have : charged < day.inMonthOf before :=
        Date.lt_of_inMonth_lt (by show _ < before.inMonth.index; omega)
      rw [Date.lt_def] at this
      omega
    · have same : (day.inMonthOf before).number = (day.inMonthOf charged).number :=
        congrArg Date.number (day.inMonthOf_congr (Month.ext_index (by omega)))
      have lt : day.inMonthOf charged < day.inMonthOf d := day.inMonthOf_lt gt
      rw [Date.lt_def] at lt
      omega

end

/-! ## the day of a cutoff -/

/-- a card due on the 15th whose statement closes five days before -/
def Policy.midMonth : Policy := ⟨some ⟨15, by decide⟩, some 5⟩

/-- **A charge of a cutoff's own day lies in the window of a bill that it is not paid with.** -/
theorem window_misses_cutoff_day :
    let cutoffDay := (Date.of? 2024 3 10).get rfl
    let due := (Date.of? 2024 3 15).get rfl
    let w : Window := ⟨(Date.of? 2024 2 11).get rfl, cutoffDay⟩
    Policy.midMonth.paymentDue cutoffDay = .ok (some due) ∧
      Policy.midMonth.window due = .ok (some w) ∧ w.Has cutoffDay ∧
      ∃ paid, resolveDue (some Policy.midMonth) ⟨cutoffDay, false, none⟩ = .ok (some paid) ∧
        paid ≠ due := by
  intro cutoffDay due w
  refine ⟨by decide +kernel, by decide +kernel, by decide, (Date.of? 2024 4 15).get rfl, ?_, ?_⟩
  · decide +kernel
  · decide

/-! ## a cutoff far back -/

/-- a card due on the 5th whose statement closes six weeks before -/
def Policy.sixWeeks : Policy := ⟨some ⟨5, by decide⟩, some 45⟩

/-- a charge in the window of the bill of April was paid in February: it is one that `Window.Parts`
names -/
theorem window_pays_iff_sixWeeks :
    let charged := (Date.of? 2024 1 25).get rfl
    let april := (Date.of? 2024 4 1).get rfl
    let due := (Date.of? 2024 4 5).get rfl
    let paid := (Date.of? 2024 2 5).get rfl
    let w : Window := ⟨(Date.of? 2024 1 21).get rfl, (Date.of? 2024 2 20).get rfl⟩
    Policy.sixWeeks.paymentDue april = .ok (some due) ∧ Policy.sixWeeks.window due = .ok (some w) ∧
      resolveDue (some Policy.sixWeeks) ⟨charged, false, none⟩ = .ok (some paid) ∧
      w.Has charged ∧ w.Parts charged 3 ∧ ((paid = due ↔ w.Has charged) ↔ ¬ w.Parts charged 3) := by
  intro charged april due paid w
  have hd : Policy.sixWeeks.paymentDue april = .ok (some due) := by decide +kernel
  have hw : Policy.sixWeeks.window due = .ok (some w) := by decide +kernel
  have hr : resolveDue (some Policy.sixWeeks) ⟨charged, false, none⟩ = .ok (some paid) := by
    decide +kernel
  have has : w.Has charged := by decide
  have months : april.inMonth.index - charged.inMonth.index = 3 := by decide
  have parts := window_pays_iff rfl hd hw hr
  rw [months] at parts
  exact ⟨hd, hw, hr, has, .inr (.inr ⟨by decide, has⟩), parts⟩

end Billfold
