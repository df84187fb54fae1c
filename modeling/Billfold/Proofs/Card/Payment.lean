import Mathlib.Control.Monad.Basic
import Billfold.Proofs.Card.Defined

/-!
# The order of payment dates

A payment date is the due day of a month, so payment dates stand in the order of their months, and
the month is the charge's own or the next.  A stamp keeps that month, and of the settings of a later
day only the due day still counts.

* `le_of_resolveDue`      a later charge, a deferral and more cutoff days never bring a payment
                          forward
* `payments_ordered`      all that is known of the order of payment dates
* `Charge.stamped`        a charge with its stamp
* `stamp_keeps_payment`   the payment date of a charge with its stamp, under any settings
-/

namespace Billfold

section
variable {p q : Policy} {day : DueDay} {c c' : Charge} {due due' : Date}

theorem le_of_resolveDue (hp : p.dueDay = some day) (hq : q.dueDay = some day)
    (offset : p.offset ≤ q.offset) (date : c.date ≤ c'.date)
    (deferred : c.deferred = true → c'.deferred = true)
    (hd : resolveDue (some p) c = .ok (some due))
    (hd' : resolveDue (some q) c' = .ok (some due')) : due ≤ due' := by
  -- due days are in the order of their months
  suffices month : due.inMonth ≤ due'.inMonth by
    obtain ⟨_, e, same⟩ := exists_due_of_resolveDue hp hd
    obtain ⟨_, e', same'⟩ := exists_due_of_resolveDue hq hd'
    cases e
    cases e'
    rw [← same, ← same']
    exact day.inMonthOf_le month
  have months := Date.inMonth_le_of_le date
  rw [inMonth_of_resolveDue hp hd, inMonth_of_resolveDue hq hd']
  rw [Month.le_def] at months ⊢
  rw [Month.index_shift, Month.index_shift]
  rcases Int.lt_or_eq_of_le months with earlier | eq
  · split <;> split <;> omega
  · -- in one month the later charge goes to the next bill if the earlier one does
    have same := Month.ext_index eq
    have days := Date.day_le_of_le date same
    have dueDay := congrArg Date.day (day.inMonthOf_congr same)
    by_cases rolls : c.deferred = true ∨ (day.inMonthOf c.date).day ≤ c.date.day + p.offset
    · have rolls' : c'.deferred = true ∨ (day.inMonthOf c'.date).day ≤ c'.date.day + q.offset :=
        rolls.imp deferred fun le => by omega
      rw [if_pos rolls, if_pos rolls']
      omega
    · rw [if_neg rolls]
      split <;> omega

theorem near_of_resolveDue (hp : p.dueDay = some day)
    (hd : resolveDue (some p) c = .ok (some due)) :
    due.inMonth = c.date.inMonth ∨ due.inMonth = c.date.inMonth.shift 1 := by
  rw [inMonth_of_resolveDue hp hd]
  split
  · exact .inr rfl
  · exact .inl (Month.shift_zero _)

end

theorem Policy.dueDay_of_ok {given : Int} {cutoffDays : Option Int} {p : Policy}
    (accepted : Policy.of (some given) cutoffDays = .ok p) :
    ∃ day : DueDay, p.dueDay = some day ∧ (day.1 : Int) = given := by
  obtain ⟨due, -⟩ := Policy.of_ok accepted
  obtain ⟨day, h, e⟩ := Option.map_eq_some_iff.1 due.symm
  exact ⟨day, h, e⟩

/-- **The order of payment dates**, under accepted settings with one due day.  Whatever the cutoff
days, the due date of a month is the same, for no cutoff comes after the due day of its month.  A
charge is paid after its day, in its month or in the next.  And a later charge, a deferral and more
cutoff days never bring a payment forward. -/
theorem payments_ordered {given : Int} {k l : Option Int} {p q : Policy}
    (hp : Policy.of (some given) k = .ok p) (hq : Policy.of (some given) l = .ok q) :
    (∀ d r s, p.paymentDue d = .ok r → q.paymentDue d = .ok s → r = s) ∧
      (∀ d r, p.cutoff d = .ok r → ∃ close due, r = some close ∧
        clampDay d.year d.month given = .ok due ∧ close ≤ due) ∧
      (∀ c r, resolveDue (some p) c = .ok r → ∃ due, r = some due ∧ c.date < due ∧
        (due.inMonth = c.date.inMonth ∨ due.inMonth = c.date.inMonth.shift 1)) ∧
      ∀ c c' due due', k.getD 0 ≤ l.getD 0 → c.date ≤ c'.date →
        (c.deferred = true → c'.deferred = true) →
        resolveDue (some p) c = .ok (some due) → resolveDue (some q) c' = .ok (some due') →
        due ≤ due' := by
  obtain ⟨day, due_p, rfl⟩ := Policy.dueDay_of_ok hp
  obtain ⟨day', due_q, same⟩ := Policy.dueDay_of_ok hq
  cases Subtype.ext (Int.ofNat_inj.1 same)
  refine ⟨fun d r s hr hs => ?_, fun d r hr => ?_, fun c r hr => ?_,
    fun c c' due due' days date deferred hd hd' => ?_⟩
  · rw [Policy.eq_of_paymentDue due_p hr, Policy.eq_of_paymentDue due_q hs]
  · obtain ⟨close, rfl, -⟩ := Policy.number_of_cutoff due_p hr
    exact ⟨close, _, rfl, day.clampDay_eq d, Policy.le_of_cutoff due_p hr⟩
  · obtain ⟨due, rfl, -⟩ := exists_due_of_resolveDue due_p hr
    exact ⟨due, rfl, lt_of_resolveDue due_p hr, near_of_resolveDue due_p hr⟩
  · rw [(Policy.of_ok hp).2, (Policy.of_ok hq).2] at days
    exact le_of_resolveDue due_p due_q (Int.ofNat_le.1 days) date deferred hd hd'

/-- without cutoff days a charge of 29 January 2024 is paid on the 31st; with three of them, and
made ten days later, on the last of February -/
theorem payments_ordered_february :
    let given : Int := 31
    let january := (Date.of? 2024 1 29).get rfl
    let february := (Date.of? 2024 2 8).get rfl
    let due := (Date.of? 2024 1 31).get rfl
    let due' := (Date.of? 2024 2 29).get rfl
    ∃ p q, Policy.of (some given) none = .ok p ∧ Policy.of (some given) (some 3) = .ok q ∧
      resolveDue (some p) ⟨january, false, none⟩ = .ok (some due) ∧
      resolveDue (some q) ⟨february, false, none⟩ = .ok (some due') ∧ due ≤ due' := by
  intro given january february due due'
  have hp : Policy.of (some given) none = .ok ⟨some ⟨31, by decide⟩, none⟩ := rfl
  have hq : Policy.of (some given) (some 3) = .ok ⟨some ⟨31, by decide⟩, some 3⟩ := rfl
  have hd : resolveDue (some ⟨some ⟨31, by decide⟩, none⟩) ⟨january, false, none⟩
      = .ok (some due) := by decide +kernel
  have hd' : resolveDue (some ⟨some ⟨31, by decide⟩, some 3⟩) ⟨february, false, none⟩
      = .ok (some due') := by decide +kernel
  have ordered := (payments_ordered hp hq).2.2.2 ⟨january, false, none⟩ ⟨february, false, none⟩
  exact ⟨_, _, hp, hq, hd, hd', ordered due due' (by decide) (by decide) (fun on => on) hd hd'⟩

/-! ## a charge with its stamp -/

def Charge.stamped (c : Charge) (s : Stamp) : Charge := { c with month := some s.month }

section
variable {p q : Policy} {day : DueDay} {c : Charge} {s : Stamp}

/-- **The payment date shown of a charge with its stamp is the due day in the stamped month.** -/
theorem shownDue_stamped (h : p.dueDay = some day) :
    shownDue (some p) (c.stamped s) = .ok (some (day.inMonthOf s.month)) := by
  have bound : (some p).bind Policy.dueDay = some day := h
  unfold shownDue
  rw [bound]
  rfl

end

/-- **Stamping a charge does not move its payment, and later settings cannot move its month.**  With
its stamp a charge is shown with the payment date that was decided for it; and under any settings
with a due day, whatever the cutoff days, it is shown with that day of the stamped month, or the
month's last: so in the month that was decided for it. -/
theorem stamp_keeps_payment {policy : Option Policy} {c : Charge} {now : Instant} {s : Stamp}
    (h : stampFor policy c now = .ok (some s)) :
    ∃ due, resolveDue policy c = .ok (some due) ∧ shownDue policy (c.stamped s) = .ok (some due) ∧
      ∀ q : Policy, ∀ day : DueDay, q.dueDay = some day →
        ∃ shown, shownDue (some q) (c.stamped s) = .ok (some shown) ∧
          clampDay s.month.year s.month.month day.1 = .ok shown ∧
          shown.day = min day.1 s.month.inMonth.lastDay ∧
          shown.inMonth = s.month.inMonth ∧ shown.inMonth = due.inMonth := by
  rcases stampFor_cases h with ⟨-, none⟩ | ⟨p, day, due, rfl, hp, decided, e⟩
  · cases none
  cases e
  obtain ⟨_, e, itself⟩ := exists_due_of_resolveDue hp decided
  cases e
  have month : due.firstOfMonth.inMonth = due.inMonth := due.inMonth_firstOfMonth
  refine ⟨due, decided, ?_, fun q day' hq => ?_⟩
  · rw [shownDue_stamped hp, day.inMonthOf_congr month, itself]
  · have within := day'.inMonth_inMonthOf due.firstOfMonth
    exact ⟨_, shownDue_stamped hq, day'.clampDay_eq _, day'.day_inMonthOf _, within,
      within.trans month⟩

/-- a charge deferred from 20 January 2024 is due on the last of February; under settings whose
cutoff lies before the calendar it is shown on 10 February -/
theorem stamp_keeps_payment_closing :
    let c : Charge := ⟨(Date.of? 2024 1 20).get rfl, true, none⟩
    let p : Policy := ⟨some ⟨31, by decide⟩, some 3⟩
    let now := Instant.midnight c.date
    let s : Stamp := ⟨(Date.of? 2024 2 1).get rfl, now⟩
    let due := (Date.of? 2024 2 29).get rfl
    stampFor (some p) c now = .ok (some s) ∧ resolveDue (some p) c = .ok (some due) ∧
      shownDue (some p) (c.stamped s) = .ok (some due) ∧
      (Policy.closing 800000).cutoff s.month = .error .outOfRange ∧
      ∃ shown, shownDue (some (Policy.closing 800000)) (c.stamped s) = .ok (some shown) ∧
        shown.day = 10 ∧ shown.inMonth = due.inMonth := by
  intro c p now s due
  have h : stampFor (some p) c now = .ok (some s) := by decide +kernel
  have decided : resolveDue (some p) c = .ok (some due) := by decide +kernel
  have closed : (Policy.closing 800000).cutoff s.month = .error .outOfRange := by decide +kernel
  obtain ⟨_, decided', shown, others⟩ := stamp_keeps_payment h
  cases decided.symm.trans decided'
  obtain ⟨later, told, -, tenth, -, month⟩ := others (.closing 800000) ⟨10, by decide⟩ rfl
  have last : s.month.inMonth.lastDay = 29 := by decide
  rw [last] at tenth
  exact ⟨h, decided, shown, closed, later, told, tenth, month⟩

end Billfold
