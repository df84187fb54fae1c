import Billfold.Card.Stamp
import Billfold.Proofs.Calendar.Months
import Billfold.Proofs.Except

/-!
# What the dates of a bill are

Each function of a policy with a due day, told by the due day in a month and the cutoff days.

* `DueDay.inMonthOf_congr`    the due day is one for all days of a month
* `Policy.number_of_cutoff`   the cutoff comes the cutoff days before the due day
* `Policy.eq_of_paymentDue`   the due date is the month's due day, whatever the cutoff days
* `Policy.ends_of_window`     first and last day of a window
* `resolveDue_cases`          before its month's cutoff a charge is paid in its month, from then on
                              in the next
* `inMonth_of_resolveDue`     the month of a due date, by the day of the charge
* `stampFor_cases`            a policy without a due day gives no stamp, any other gives one
-/

namespace Billfold

namespace DueDay

theorem inMonth_inMonthOf (day : DueDay) (d : Date) : (day.inMonthOf d).inMonth = d.inMonth :=
  Date.inMonth_withDay d day.1 day.2.1

theorem day_inMonthOf (day : DueDay) (d : Date) :
    (day.inMonthOf d).day = min day.1 d.inMonth.lastDay := Date.day_withDay d day.1 day.2.1

theorem inMonthOf_congr (day : DueDay) {d e : Date} (h : d.inMonth = e.inMonth) :
    day.inMonthOf d = day.inMonthOf e :=
  Date.ext_inMonth h (by rw [day_inMonthOf, day_inMonthOf, h])

theorem inMonthOf_lt (day : DueDay) {d e : Date} (h : d.inMonth < e.inMonth) :
    day.inMonthOf d < day.inMonthOf e := by
  apply Date.lt_of_inMonth_lt
  rwa [inMonth_inMonthOf, inMonth_inMonthOf]

theorem inMonthOf_le (day : DueDay) {d e : Date} (h : d.inMonth ≤ e.inMonth) :
    day.inMonthOf d ≤ day.inMonthOf e := by
  rw [Month.le_def] at h
  rcases Int.lt_or_eq_of_le h with lt | eq
  · exact Nat.le_of_lt (day.inMonthOf_lt lt)
  · exact Nat.le_of_eq (congrArg Date.number (day.inMonthOf_congr (Month.ext_index eq)))

theorem inMonthOf_eq_iff (day : DueDay) {d e : Date} :
    day.inMonthOf d = day.inMonthOf e ↔ d.inMonth = e.inMonth := by
  refine ⟨fun h => ?_, day.inMonthOf_congr⟩
  have := congrArg Date.inMonth h
  rwa [inMonth_inMonthOf, inMonth_inMonthOf] at this

theorem inMonthOf_inMonthOf (day : DueDay) (d : Date) :
    day.inMonthOf (day.inMonthOf d) = day.inMonthOf d :=
  day.inMonthOf_congr (day.inMonth_inMonthOf d)

theorem inMonth_of_moved (day : DueDay) {d e : Date} {months : Int}
    (moved : d.addMonths months = .ok e) : (day.inMonthOf e).inMonth = d.inMonth.shift months := by
  rw [inMonth_inMonthOf]
  exact (Date.inMonth_of_addMonths moved).1

theorem clampDay_eq (day : DueDay) (d : Date) :
    clampDay d.year d.month day.1 = .ok (day.inMonthOf d) := by
  have inside : Date.inside d.inMonth day.1 = .ok (day.inMonthOf d) :=
    Date.inside_eq_ok.2 ⟨day.inMonth_inMonthOf d, day.day_inMonthOf d⟩
  rwa [Date.inside_eq_clampDay, Date.year_inMonth, Date.number_inMonth] at inside

end DueDay

namespace Policy

variable {p : Policy} {day : DueDay}

theorem number_of_cutoff (h : p.dueDay = some day) {d : Date} {close : Option Date}
    (hc : p.cutoff d = .ok close) :
    ∃ c, close = some c ∧ c.number + p.offset = (day.inMonthOf d).number := by
  unfold cutoff at hc
  rw [h] at hc
  obtain ⟨c, hs, rfl⟩ := Except.map_eq_ok.1 hc
  have := Date.number_of_shift hs
  exact ⟨c, rfl, by omega⟩

theorem le_of_cutoff (h : p.dueDay = some day) {d close : Date}
    (hc : p.cutoff d = .ok (some close)) : close ≤ day.inMonthOf d := by
  obtain ⟨_, e, number⟩ := number_of_cutoff h hc
  cases e
  rw [Date.le_def]
  omega

/-- **The due date is the month's due day, whatever the cutoff days:** a cutoff never comes after
it, so no bill is pushed to the next month. -/
theorem eq_of_paymentDue (h : p.dueDay = some day) {d : Date} {due : Option Date}
    (hd : p.paymentDue d = .ok due) : due = some (day.inMonthOf d) := by
  unfold paymentDue at hd
  obtain ⟨close, hc, hd⟩ := Except.bind_eq_ok.1 hd
  obtain ⟨c, rfl, -⟩ := number_of_cutoff h hc
  rw [h] at hd
  simp only [if_pos (le_of_cutoff h hc)] at hd
  cases hd
  rfl

theorem cutoff_of_rollsOver (h : p.dueDay = some day) {charged d : Date} {b : Bool}
    (hr : p.rollsOver charged d = .ok b) :
    ∃ c, p.cutoff d = .ok (some c) ∧ b = decide (c ≤ charged) := by
  unfold rollsOver at hr
  obtain ⟨close, hc, hr⟩ := Except.bind_eq_ok.1 hr
  obtain ⟨c, rfl, -⟩ := number_of_cutoff h hc
  cases hr
  exact ⟨c, hc, rfl⟩

/-- a window ends the cutoff days before its due date, and starts the day after the cutoff of the
month before -/
theorem ends_of_window (h : p.dueDay = some day) {due : Date} {w : Option Window}
    (hw : p.window due = .ok w) :
    ∃ before v, w = some v ∧ due.addMonths (-1) = .ok before ∧
      v.last.number + p.offset = due.number ∧
      v.first.number + p.offset = (day.inMonthOf before).number + 1 := by
  unfold window at hw
  rw [h] at hw
  obtain ⟨last, hl, hw⟩ := Except.bind_eq_ok.1 hw
  obtain ⟨before, hb, hw⟩ := Except.bind_eq_ok.1 hw
  obtain ⟨previous, hp, hw⟩ := Except.bind_eq_ok.1 hw
  obtain ⟨first, hf, hw⟩ := Except.bind_eq_ok.1 hw
  have h1 := Date.number_of_shift hl
  have h2 := Date.number_of_shift hp
  have h3 := Date.number_of_shift hf
  cases hw
  exact ⟨before, ⟨first, last⟩, rfl, hb, by simp only; omega, by simp only; omega⟩

end Policy

/-! ## the due date of a charge -/

variable {p : Policy} {day : DueDay} {c : Charge} {due : Option Date}

theorem next_of_paymentDue (h : p.dueDay = some day) {d : Date}
    (hd : (d.addMonths 1 >>= p.paymentDue) = .ok due) :
    ∃ next, d.addMonths 1 = .ok next ∧ due = some (day.inMonthOf next) := by
  obtain ⟨next, hn, hd⟩ := Except.bind_eq_ok.1 hd
  exact ⟨next, hn, Policy.eq_of_paymentDue h hd⟩

/-- **A deferred charge, and one on or after its month's cutoff, is paid in the next month; any
other in its own.** -/
theorem resolveDue_cases (h : p.dueDay = some day) (hd : resolveDue (some p) c = .ok due) :
    (c.deferred = true ∧ ∃ next, c.date.addMonths 1 = .ok next ∧ due = some (day.inMonthOf next)) ∨
    (c.deferred = false ∧ ∃ close, p.cutoff c.date = .ok (some close) ∧
      ((close ≤ c.date ∧ ∃ next, c.date.addMonths 1 = .ok next ∧ due = some (day.inMonthOf next)) ∨
        (c.date < close ∧ due = some (day.inMonthOf c.date)))) := by
  unfold resolveDue at hd
  simp only [h] at hd
  cases hf : c.deferred with
  | true =>
    rw [if_pos hf] at hd
    exact .inl ⟨rfl, next_of_paymentDue h hd⟩
  | false =>
    rw [if_neg (by simp [hf])] at hd
    obtain ⟨later, hr, hd⟩ := Except.bind_eq_ok.1 hd
    obtain ⟨close, hc, rfl⟩ := Policy.cutoff_of_rollsOver h hr
    refine .inr ⟨rfl, close, hc, ?_⟩
    by_cases le : close ≤ c.date
    · rw [if_pos (decide_eq_true le)] at hd
      exact .inl ⟨le, next_of_paymentDue h hd⟩
    · rw [if_neg (by simpa using le)] at hd
      rw [Date.le_def] at le
      exact .inr ⟨by rw [Date.lt_def]; omega, Policy.eq_of_paymentDue h hd⟩

/-- a due date that is decided is the due day of a month -/
theorem exists_due_of_resolveDue (h : p.dueDay = some day) (hd : resolveDue (some p) c = .ok due) :
    ∃ d, due = some d ∧ day.inMonthOf d = d := by
  rcases resolveDue_cases h hd with ⟨-, d, -, rfl⟩ | ⟨-, _, -, ⟨-, d, -, rfl⟩ | ⟨-, rfl⟩⟩
  · exact ⟨_, rfl, day.inMonthOf_inMonthOf d⟩
  · exact ⟨_, rfl, day.inMonthOf_inMonthOf d⟩
  · exact ⟨_, rfl, day.inMonthOf_inMonthOf c.date⟩

/-- **A payment date comes after the charge.** -/
theorem lt_of_resolveDue {due : Date} (h : p.dueDay = some day)
    (hd : resolveDue (some p) c = .ok (some due)) : c.date < due := by
  have next {d : Date} (moved : c.date.addMonths 1 = .ok d) : c.date < day.inMonthOf d := by
    apply Date.lt_of_inMonth_lt
    rw [day.inMonth_of_moved moved]
    exact Month.lt_shift_one _
  rcases resolveDue_cases h hd with
    ⟨-, d, moved, e⟩ | ⟨-, close, cut, ⟨-, d, moved, e⟩ | ⟨before, e⟩⟩
  · cases e
    exact next moved
  · cases e
    exact next moved
  · cases e
    exact Nat.lt_of_lt_of_le before (Policy.le_of_cutoff h cut)

/-- **The bill of a charge is that of its month, or of the next one if it is deferred or the due day
of its month is no more than the cutoff days after it.** -/
theorem inMonth_of_resolveDue {due : Date} (h : p.dueDay = some day)
    (hd : resolveDue (some p) c = .ok (some due)) :
    due.inMonth = c.date.inMonth.shift
      (if c.deferred = true ∨ (day.inMonthOf c.date).day ≤ c.date.day + p.offset
        then 1 else 0) := by
  have next {d : Date} (moved : c.date.addMonths 1 = .ok d)
      (e : some due = some (day.inMonthOf d)) : due.inMonth = c.date.inMonth.shift 1 := by
    cases e
    exact day.inMonth_of_moved moved
  -- the due day and the charge are in one month, so their days are in the order of their numbers
  have same_month : (day.inMonthOf c.date).number + c.date.day =
      c.date.number + (day.inMonthOf c.date).day := by
    rw [Date.number_eq, Date.number_eq, day.inMonth_inMonthOf]
    omega
  rcases resolveDue_cases h hd with ⟨deferred, d, moved, e⟩ | ⟨deferred, close, cut, paid⟩
  · rw [if_pos (.inl deferred)]
    exact next moved e
  · obtain ⟨_, e, number⟩ := Policy.number_of_cutoff h cut
    cases e
    rcases paid with ⟨le, d, moved, e⟩ | ⟨lt, e⟩
    · rw [Date.le_def] at le
      rw [if_pos (.inr (by omega))]
      exact next moved e
    · rw [Date.lt_def] at lt
      cases e
      rw [if_neg, Month.shift_zero, day.inMonth_inMonthOf]
      rintro (on | le)
      · rw [deferred] at on
        cases on
      · omega

/-! ## the stamp of a charge -/

/-- **A policy without a due day decides no stamp; any other decides the first of the month of the
due date, at the time.** -/
theorem stampFor_cases {policy : Option Policy} {now : Instant} {stamp : Option Stamp}
    (h : stampFor policy c now = .ok stamp) :
    (policy.bind Policy.dueDay = none ∧ stamp = none) ∨
      ∃ p day due, policy = some p ∧ p.dueDay = some day ∧ resolveDue policy c = .ok (some due) ∧
        stamp = some ⟨due.firstOfMonth, now⟩ := by
  unfold stampFor at h
  obtain ⟨due, hd, h⟩ := Except.bind_eq_ok.1 h
  cases policy with
  | none =>
    cases hd
    cases h
    exact .inl ⟨rfl, rfl⟩
  | some p =>
    cases hp : p.dueDay with
    | none =>
      unfold resolveDue at hd
      simp only [hp] at hd
      cases hd
      cases h
      exact .inl ⟨hp, rfl⟩
    | some day =>
      obtain ⟨d, rfl, -⟩ := exists_due_of_resolveDue hp hd
      cases h
      exact .inr ⟨p, day, d, rfl, hp, hd, rfl⟩

end Billfold
