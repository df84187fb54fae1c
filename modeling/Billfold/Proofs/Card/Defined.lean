import Billfold.Proofs.Card.Cycle

/-!
# How far back a statement may close

The days between a statement's cutoff and its due day are any number that is not negative.  A
cutoff that lies before the first day of the calendar does not exist, and then no date of the bill
can be told.

* `Policy.cutoff_isOk`, `Policy.window_isOk`   when each date exists
* `resolveDue_of_next`, `resolveDue_of_own`    the two payment dates of a charge, where they exist
* `Policy.Dated`            all dates that have to do with a day exist
* `Policy.dated_iff`        they do if the due day of the month before lies more than the cutoff
                            days after the start of the calendar
* `dated_iff_of_settings`   accepted settings under which they do for every day but those of the
                            first and the last year
* `cutoff_before_calendar`  settings that are accepted, and a day for which they do not
-/

namespace Billfold

namespace Policy

variable {p : Policy} {day : DueDay} {d : Date}

theorem cutoff_isOk (h : p.dueDay = some day) :
    (∃ r, p.cutoff d = .ok r) ↔ p.offset < (day.inMonthOf d).number := by
  have last := (day.inMonthOf d).number_le_last
  have moved := Date.shift_isOk (d := day.inMonthOf d) (n := -p.offset)
  constructor
  · rintro ⟨r, hr⟩
    obtain ⟨c, -, hc⟩ := number_of_cutoff h hr
    have := c.number_pos
    omega
  · intro lt
    obtain ⟨c, hc⟩ := moved.2 ⟨by omega, by omega⟩
    unfold cutoff
    rw [h]
    exact ⟨some c, Except.map_eq_ok.2 ⟨c, hc, rfl⟩⟩

theorem paymentDue_isOk (h : p.dueDay = some day) :
    (∃ r, p.paymentDue d = .ok r) ↔ p.offset < (day.inMonthOf d).number := by
  rw [← cutoff_isOk h]
  constructor
  · rintro ⟨r, hr⟩
    unfold paymentDue at hr
    obtain ⟨close, hc, -⟩ := Except.bind_eq_ok.1 hr
    exact ⟨close, hc⟩
  · rintro ⟨close, hc⟩
    obtain ⟨c, rfl, -⟩ := number_of_cutoff h hc
    refine ⟨some (day.inMonthOf d), ?_⟩
    unfold paymentDue
    refine Except.bind_eq_ok.2 ⟨some c, hc, ?_⟩
    simp only [h]
    rw [if_pos (le_of_cutoff h hc)]
    rfl

theorem paymentDue_eq (h : p.dueDay = some day) (lt : p.offset < (day.inMonthOf d).number) :
    p.paymentDue d = .ok (some (day.inMonthOf d)) := by
  obtain ⟨due, hd⟩ := (paymentDue_isOk h).2 lt
  cases eq_of_paymentDue h hd
  exact hd

theorem rollsOver_isOk (h : p.dueDay = some day) (charged : Date) :
    (∃ r, p.rollsOver charged d = .ok r) ↔ p.offset < (day.inMonthOf d).number := by
  rw [← cutoff_isOk h]
  constructor
  · rintro ⟨r, hr⟩
    obtain ⟨c, hc, -⟩ := cutoff_of_rollsOver h hr
    exact ⟨some c, hc⟩
  · rintro ⟨close, hc⟩
    obtain ⟨c, rfl, -⟩ := number_of_cutoff h hc
    exact ⟨_, Except.bind_eq_ok.2 ⟨some c, hc, rfl⟩⟩

theorem rollsOver_eq (h : p.dueDay = some day) (lt : p.offset < (day.inMonthOf d).number)
    (charged : Date) :
    p.rollsOver charged d =
      .ok (decide ((day.inMonthOf d).number ≤ charged.number + p.offset)) := by
  obtain ⟨b, hr⟩ := (rollsOver_isOk h charged).2 lt
  obtain ⟨close, hc, rfl⟩ := cutoff_of_rollsOver h hr
  obtain ⟨_, e, number⟩ := number_of_cutoff h hc
  cases e
  have same : close ≤ charged ↔ (day.inMonthOf d).number ≤ charged.number + p.offset := by
    rw [Date.le_def]
    omega
  rw [hr, decide_eq_decide.2 same]

theorem cycle_eq (h : p.dueDay = some day) {close : Date} (hc : p.cutoff d = .ok (some close)) :
    p.cycle d = .ok (some ⟨close, day.inMonthOf d⟩) := by
  have due := paymentDue_eq h ((cutoff_isOk h).1 ⟨_, hc⟩)
  exact Except.bind_eq_ok.2 ⟨some close, hc, Except.bind_eq_ok.2 ⟨_, due, rfl⟩⟩

theorem cycle_isOk (h : p.dueDay = some day) :
    (∃ r, p.cycle d = .ok r) ↔ p.offset < (day.inMonthOf d).number := by
  constructor
  · rintro ⟨r, hr⟩
    obtain ⟨close, hc, -⟩ := Except.bind_eq_ok.1 hr
    exact (cutoff_isOk h).1 ⟨close, hc⟩
  · intro lt
    obtain ⟨close, hc⟩ := (cutoff_isOk h).2 lt
    obtain ⟨c, rfl, -⟩ := number_of_cutoff h hc
    exact ⟨_, cycle_eq h hc⟩

/-- the window of a due date exists if its own cutoff and that of the month before do -/
theorem window_isOk (h : p.dueDay = some day) :
    (∃ r, p.window d = .ok r) ↔
      p.offset < d.number ∧
        ∃ before, d.addMonths (-1) = .ok before ∧ p.offset < (day.inMonthOf before).number := by
  constructor
  · rintro ⟨r, hr⟩
    obtain ⟨before, w, -, hb, last, first⟩ := ends_of_window h hr
    have := w.last.number_pos
    unfold window at hr
    simp only [h] at hr
    obtain ⟨_, -, hr⟩ := Except.bind_eq_ok.1 hr
    obtain ⟨_, hb', hr⟩ := Except.bind_eq_ok.1 hr
    rw [hb] at hb'
    cases hb'
    obtain ⟨previous, hp, -⟩ := Except.bind_eq_ok.1 hr
    have := Date.number_of_shift hp
    have := previous.number_pos
    exact ⟨by omega, before, hb, by omega⟩
  · rintro ⟨lt, before, hb, lt'⟩
    have last := d.number_le_last
    have earlier : day.inMonthOf before < d := by
      apply Date.lt_of_inMonth_lt
      rw [day.inMonth_inMonthOf, (Date.inMonth_of_addMonths hb).1]
      exact Month.shift_neg_one_lt _
    rw [Date.lt_def] at earlier
    obtain ⟨close, hl⟩ := (Date.shift_isOk (d := d) (n := -p.offset)).2 ⟨by omega, by omega⟩
    obtain ⟨previous, hp⟩ := (Date.shift_isOk (d := day.inMonthOf before) (n := -p.offset)).2
      ⟨by omega, by omega⟩
    have := Date.number_of_shift hp
    obtain ⟨first, hf⟩ := (Date.shift_isOk (d := previous) (n := 1)).2 ⟨by omega, by omega⟩
    refine ⟨some ⟨first, close⟩, ?_⟩
    unfold window
    simp only [h]
    refine Except.bind_eq_ok.2 ⟨close, hl, Except.bind_eq_ok.2 ⟨before, hb, ?_⟩⟩
    exact Except.bind_eq_ok.2 ⟨previous, hp, Except.bind_eq_ok.2 ⟨first, hf, rfl⟩⟩

theorem of_ok {dueDay cutoffDays : Option Int} (accepted : Policy.of dueDay cutoffDays = .ok p) :
    dueDay = p.dueDay.map (fun day => (day.1 : Int)) ∧ cutoffDays.getD 0 = p.offset := by
  obtain ⟨due, hd, rest⟩ := Except.bind_eq_ok.1 accepted
  obtain ⟨days, hc, made⟩ := Except.bind_eq_ok.1 rest
  cases made
  constructor
  · cases dueDay with
    | none =>
      cases hd
      rfl
    | some given =>
      simp only [dueDayOf] at hd
      split at hd
      · next range =>
        cases hd
        have natural : ((given.toNat : Nat) : Int) = given := by omega
        exact congrArg some natural.symm
      · cases hd
  · cases cutoffDays with
    | none =>
      cases hc
      rfl
    | some given =>
      simp only [cutoffDaysOf] at hc
      split at hc
      · cases hc
      · cases hc
        have natural : ((given.toNat : Nat) : Int) = given := by omega
        exact natural.symm

end Policy

/-! ## the dates of a charge -/

section
variable {p : Policy} {day : DueDay} {c : Charge} {next : Date}

theorem resolveDue_of_next (h : p.dueDay = some day) (hn : c.date.addMonths 1 = .ok next)
    (lt : p.offset < (day.inMonthOf c.date).number)
    (later : c.deferred = true ∨ (day.inMonthOf c.date).number ≤ c.date.number + p.offset) :
    resolveDue (some p) c = .ok (some (day.inMonthOf next)) := by
  have order : day.inMonthOf c.date < day.inMonthOf next := day.inMonthOf_lt (by
    rw [(Date.inMonth_of_addMonths hn).1]
    exact Month.lt_shift_one _)
  rw [Date.lt_def] at order
  have moved : (c.date.addMonths 1 >>= p.paymentDue) = .ok (some (day.inMonthOf next)) :=
    Except.bind_eq_ok.2 ⟨next, hn, Policy.paymentDue_eq h (by omega)⟩
  unfold resolveDue
  simp only [h]
  by_cases deferred : c.deferred = true
  · rw [if_pos deferred]
    exact moved
  · have rolls := Policy.rollsOver_eq h lt c.date
    rw [decide_eq_true (later.resolve_left deferred)] at rolls
    rw [if_neg deferred]
    exact Except.bind_eq_ok.2 ⟨true, rolls, moved⟩

theorem resolveDue_of_own (h : p.dueDay = some day) (lt : p.offset < (day.inMonthOf c.date).number)
    (deferred : c.deferred = false)
    (before : c.date.number + p.offset < (day.inMonthOf c.date).number) :
    resolveDue (some p) c = .ok (some (day.inMonthOf c.date)) := by
  have rolls := Policy.rollsOver_eq h lt c.date
  rw [decide_eq_false (Nat.not_le_of_lt before)] at rolls
  unfold resolveDue
  simp only [h, deferred]
  exact Except.bind_eq_ok.2 ⟨false, rolls, Policy.paymentDue_eq h lt⟩

theorem exists_resolveDue (h : p.dueDay = some day) (hn : c.date.addMonths 1 = .ok next)
    (lt : p.offset < (day.inMonthOf c.date).number) : ∃ r, resolveDue (some p) c = .ok r := by
  by_cases later : c.deferred = true ∨ (day.inMonthOf c.date).number ≤ c.date.number + p.offset
  · exact ⟨_, resolveDue_of_next h hn lt later⟩
  · obtain ⟨deferred, before⟩ := not_or.1 later
    exact ⟨_, resolveDue_of_own h lt (Bool.eq_false_iff.2 deferred) (Nat.lt_of_not_le before)⟩

theorem exists_stampFor {policy : Option Policy} (h : ∃ r, resolveDue policy c = .ok r)
    (now : Instant) : ∃ r, stampFor policy c now = .ok r := by
  obtain ⟨due, hd⟩ := h
  cases due with
  | none => exact ⟨none, Except.bind_eq_ok.2 ⟨none, hd, rfl⟩⟩
  | some due => exact ⟨some ⟨due.firstOfMonth, now⟩, Except.bind_eq_ok.2 ⟨some due, hd, rfl⟩⟩

theorem exists_shownDue {policy : Option Policy} (h : ∃ r, resolveDue policy c = .ok r) :
    ∃ r, shownDue policy c = .ok r := by
  unfold shownDue
  split
  · exact ⟨_, rfl⟩
  · split
    · exact ⟨_, rfl⟩
    · exact h

end

/-! ## all dates of a day -/

/-- all dates exist that a policy tells of a day: as a reference, as a due date, and as the day of a
charge with any flag and any stamp -/
structure Policy.Dated (p : Policy) (d : Date) : Prop where
  cutoff : ∃ r, p.cutoff d = .ok r
  paymentDue : ∃ r, p.paymentDue d = .ok r
  rollsOver : ∀ charged, ∃ r, p.rollsOver charged d = .ok r
  cycle : ∃ r, p.cycle d = .ok r
  window : ∃ r, p.window d = .ok r
  resolve : ∀ deferred month, ∃ r, resolveDue (some p) ⟨d, deferred, month⟩ = .ok r
  stamp : ∀ deferred month now, ∃ r, stampFor (some p) ⟨d, deferred, month⟩ now = .ok r
  shown : ∀ deferred month, ∃ r, shownDue (some p) ⟨d, deferred, month⟩ = .ok r

namespace Policy

variable {p : Policy} {day : DueDay} {d before : Date}

theorem dated_of_no_dueDay (h : p.dueDay = none) (d : Date) : p.Dated d := by
  have cutoff (d : Date) : p.cutoff d = .ok none := by
    unfold Policy.cutoff
    rw [h]
  have due : p.paymentDue d = .ok none := by
    refine Except.bind_eq_ok.2 ⟨none, cutoff d, ?_⟩
    simp only [h]
    rfl
  have resolve (c : Charge) : ∃ r, resolveDue (some p) c = .ok r := by
    unfold resolveDue
    simp only [h]
    exact ⟨none, rfl⟩
  refine ⟨⟨none, cutoff d⟩, ⟨none, due⟩, fun charged => ?_, ?_, ?_, fun _ _ => resolve _,
    fun _ _ now => exists_stampFor (resolve _) now, fun _ _ => exists_shownDue (resolve _)⟩
  · exact ⟨false, Except.bind_eq_ok.2 ⟨none, cutoff d, rfl⟩⟩
  · exact ⟨none, Except.bind_eq_ok.2 ⟨none, cutoff d, Except.bind_eq_ok.2 ⟨none, due, rfl⟩⟩⟩
  · unfold Policy.window
    rw [h]
    exact ⟨none, rfl⟩

/-- **All dates of a day exist if the due day of the month before lies more than the cutoff days
after the start of the calendar**: the window of that day asks for the cutoff that is furthest
back. -/
theorem dated_iff (h : p.dueDay = some day) (year : d.year ≤ 9998)
    (hb : d.addMonths (-1) = .ok before) :
    p.Dated d ↔ p.offset < (day.inMonthOf before).number := by
  constructor
  · intro dated
    obtain ⟨-, _, hb', lt⟩ := (window_isOk h).1 dated.window
    rw [hb] at hb'
    cases hb'
    exact lt
  · intro lt
    have previous : before.inMonth < d.inMonth := by
      rw [(Date.inMonth_of_addMonths hb).1]
      exact Month.shift_neg_one_lt _
    have here := day.inMonthOf_lt previous
    have own : day.inMonthOf before < d :=
      Date.lt_of_inMonth_lt (by rwa [day.inMonth_inMonthOf])
    rw [Date.lt_def] at here own
    obtain ⟨next, hn⟩ : ∃ next, d.addMonths 1 = .ok next := by
      have := d.year_inMonth
      have := d.year_pos
      refine Date.addMonths_isOk.2 ?_
      rw [Month.year_shift_one]
      split <;> omega
    have resolve (deferred : Bool) (month : Option Date) :
        ∃ r, resolveDue (some p) ⟨d, deferred, month⟩ = .ok r :=
      exists_resolveDue h hn (show p.offset < (day.inMonthOf d).number by omega)
    exact ⟨(cutoff_isOk h).2 (by omega), (paymentDue_isOk h).2 (by omega),
      fun charged => (rollsOver_isOk h charged).2 (by omega), (cycle_isOk h).2 (by omega),
      (window_isOk h).2 ⟨by omega, before, hb, lt⟩, resolve,
      fun deferred month now => exists_stampFor (resolve deferred month) now,
      fun deferred month => exists_shownDue (resolve deferred month)⟩

/-- the due day of the first month that comes before another year's -/
theorem number_firstDecember (day : DueDay) (hm : d.inMonth = ⟨23⟩) :
    (day.inMonthOf d).number = 334 + day.1 := by
  have month : (day.inMonthOf d).inMonth = ⟨23⟩ := (day.inMonth_inMonthOf d).trans hm
  have days : Month.lastDay ⟨23⟩ = 31 := by decide
  have before : Month.daysBefore ⟨23⟩ = 334 := by decide
  have := day.2.2
  rw [Date.number_eq, month, before, day.day_inMonthOf, hm, days]
  omega

theorem exists_monthBefore (first : 2 ≤ d.year) : ∃ before, d.addMonths (-1) = .ok before := by
  have := d.year_inMonth
  have := d.year_le
  refine Date.addMonths_isOk.2 ?_
  unfold Month.year at *
  rw [Month.index_shift]
  omega

/-- the day that asks for the cutoff furthest back is one of the second January -/
theorem dated_all_iff (h : p.dueDay = some day) :
    (∀ d : Date, 2 ≤ d.year → d.year ≤ 9998 → p.Dated d) ↔ p.offset ≤ 333 + day.1 := by
  constructor
  · intro all
    let d : Date := (Date.of? 2 1 1).get rfl
    obtain ⟨before, hb⟩ := exists_monthBefore (d := d) (by decide)
    have month : before.inMonth = ⟨23⟩ := (Date.inMonth_of_addMonths hb).1.trans (by decide)
    have lt := (dated_iff h (by decide) hb).1 (all d (by decide) (by decide))
    rw [number_firstDecember day month] at lt
    omega
  · intro le d first last
    obtain ⟨before, hb⟩ := exists_monthBefore first
    refine (dated_iff h last hb).2 ?_
    have index : before.inMonth.index = d.inMonth.index - 1 :=
      congrArg Month.index (Date.inMonth_of_addMonths hb).1
    have year := d.year_inMonth
    unfold Month.year at year
    let december : Date := (Date.of? 1 12 1).get rfl
    have base := number_firstDecember (d := december) day (by decide)
    have same : december.inMonth.index = 23 := by decide
    rcases Int.lt_or_eq_of_le (show 23 ≤ before.inMonth.index by omega) with later | eq
    · have : day.inMonthOf december < day.inMonthOf before :=
        day.inMonthOf_lt (by show december.inMonth.index < _; omega)
      rw [Date.lt_def] at this
      omega
    · rw [number_firstDecember day (Month.ext_index eq.symm)]
      omega

end Policy

/-- **Accepted settings tell all dates of every day of the years 2 to 9998 exactly if the cutoff
days are at most 333 more than the due day.**  They tell those of one such day exactly if they are
fewer than the days of the calendar up to the due day of the month before. -/
theorem dated_iff_of_settings {dueDay cutoffDays : Option Int} {p : Policy}
    (accepted : Policy.of dueDay cutoffDays = .ok p) :
    ((∀ d : Date, 2 ≤ d.year → d.year ≤ 9998 → p.Dated d) ↔
      ∀ day, dueDay = some day → cutoffDays.getD 0 ≤ 333 + day) ∧
    ∀ d : Date, 2 ≤ d.year → d.year ≤ 9998 → ∃ before, d.addMonths (-1) = .ok before ∧
      (p.Dated d ↔ ∀ day, p.dueDay = some day →
        cutoffDays.getD 0 < (day.inMonthOf before).number) := by
  obtain ⟨due, cutoff⟩ := Policy.of_ok accepted
  rw [due, cutoff]
  cases h : p.dueDay with
  | none =>
    have dated := Policy.dated_of_no_dueDay h
    refine ⟨⟨fun _ _ e => ?_, fun _ d _ _ => dated d⟩, fun d first _ => ?_⟩
    · cases e
    · obtain ⟨before, hb⟩ := Policy.exists_monthBefore first
      exact ⟨before, hb, fun _ _ e => (nomatch e), fun _ => dated d⟩
  | some day =>
    constructor
    · rw [Policy.dated_all_iff h]
      constructor
      · intro le _ e
        cases e
        exact Int.ofNat_le.2 le
      · intro le
        exact Int.ofNat_le.1 (le _ rfl)
    · intro d first last
      obtain ⟨before, hb⟩ := Policy.exists_monthBefore first
      refine ⟨before, hb, ?_⟩
      rw [Policy.dated_iff h last hb]
      constructor
      · intro lt _ e
        cases e
        exact Int.ofNat_lt.2 lt
      · intro all
        exact Int.ofNat_lt.1 (all day rfl)

/-! ## a cutoff before the calendar -/

/-- the settings of a card due on the 10th -/
def Policy.closing (days : Nat) : Policy := ⟨some ⟨10, by decide⟩, some days⟩

/-- with 343 days between cutoff and due day the dates of every day exist, and with one more they
do not -/
theorem dated_iff_of_settings_year :
    Policy.of (some 10) (some 343) = .ok (.closing 343) ∧
      (∀ d : Date, 2 ≤ d.year → d.year ≤ 9998 → (Policy.closing 343).Dated d) ∧
      Policy.of (some 10) (some 344) = .ok (.closing 344) ∧
      ¬ ∀ d : Date, 2 ≤ d.year → d.year ≤ 9998 → (Policy.closing 344).Dated d := by
  have accepted : Policy.of (some 10) (some 343) = .ok (.closing 343) := rfl
  have accepted' : Policy.of (some 10) (some 344) = .ok (.closing 344) := rfl
  refine ⟨accepted, (dated_iff_of_settings accepted).1.2 fun day e => ?_, accepted', fun all => ?_⟩
  · cases e
    decide
  · exact absurd ((dated_iff_of_settings accepted').1.1 all 10 rfl) (by decide)

/-- **Settings are accepted under which no cutoff exists for a day of 2024.** -/
theorem cutoff_before_calendar :
    Policy.of (some 10) (some 800000) = .ok (.closing 800000) ∧
      (Policy.closing 800000).cutoff ((Date.of? 2024 3 4).get rfl) = .error .outOfRange :=
  ⟨rfl, rfl⟩

end Billfold
