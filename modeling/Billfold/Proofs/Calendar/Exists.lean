import Billfold.Proofs.Calendar.Order

/-!
# Days that exist

Every number from 1 to that of 31 December 9999 is the number of a day, so a day can be moved by
days exactly if its number stays in that range, and by months exactly if its year does.

* `yearFrom_spec`, `monthFrom_spec`   the search for a year or a month stops where it should
* `Date.exists_ofNumber?`             each number of the range has its day
* `Date.shift_isOk`, `Date.shift_eq_ok`   when a day can be moved by days, and where to
* `Date.addMonths_isOk`               when it can be moved by months
* `Date.exists_addMonths`             it can between the months of two days
-/

namespace Billfold

theorem daysBeforeYear_le_succ (y : Nat) : daysBeforeYear y ≤ daysBeforeYear (y + 1) := by
  cases y with
  | zero => exact Nat.le_refl _
  | succ y =>
    rw [daysBeforeYear_succ]
    exact Nat.le_add_right _ _

theorem daysBeforeYear_mono {y z : Nat} (h : y ≤ z) : daysBeforeYear y ≤ daysBeforeYear z := by
  induction h with
  | refl => exact Nat.le_refl _
  | step _ ih => exact Nat.le_trans ih (daysBeforeYear_le_succ _)

namespace Date

/-! ## the day with a number -/

theorem yearFrom_spec {n : Nat} (steps year : Nat) (after : daysBeforeYear year < n)
    (enough : n ≤ daysBeforeYear (year + steps + 1)) :
    year ≤ yearFrom n steps year ∧ daysBeforeYear (yearFrom n steps year) < n ∧
      n ≤ daysBeforeYear (yearFrom n steps year + 1) := by
  induction steps generalizing year with
  | zero => exact ⟨Nat.le_refl _, after, enough⟩
  | succ steps ih =>
    unfold yearFrom
    by_cases h : daysBeforeYear (year + 1) < n
    · rw [if_pos h]
      have next := ih (year + 1) h (by rwa [show year + 1 + steps = year + (steps + 1) by omega])
      omega
    · rw [if_neg h]
      omega

theorem monthFrom_spec {y : Int} {n : Nat} (steps month : Nat)
    (after : daysBeforeMonth y month < n) (enough : n ≤ daysBeforeMonth y (month + steps + 1)) :
    month ≤ monthFrom y n steps month ∧ monthFrom y n steps month ≤ month + steps ∧
      daysBeforeMonth y (monthFrom y n steps month) < n ∧
      n ≤ daysBeforeMonth y (monthFrom y n steps month + 1) := by
  induction steps generalizing month with
  | zero => exact ⟨Nat.le_refl _, Nat.le_refl _, after, enough⟩
  | succ steps ih =>
    unfold monthFrom
    by_cases h : daysBeforeMonth y (month + 1) < n
    · rw [if_pos h]
      have next := ih (month + 1) h (by rwa [show month + 1 + steps = month + (steps + 1) by omega])
      omega
    · rw [if_neg h]
      omega

/-- the search for the year starts early enough -/
theorem daysBeforeYear_guess {n : Nat} (pos : 1 ≤ n) : daysBeforeYear (n / 366 + 1) < n := by
  show 365 * (n / 366) + n / 366 / 4 - n / 366 / 100 + n / 366 / 400 < n
  omega

theorem of?_isSome {y m n : Nat} (hy : 1 ≤ y ∧ y ≤ 9999) (hm : 1 ≤ m ∧ m ≤ 12)
    (hn : 1 ≤ n ∧ n ≤ daysInMonth y m) : ∃ d, of? y m n = some d := by
  unfold of?
  rw [dif_pos ⟨hy.1, hy.2, hm.1, hm.2, hn.1, hn.2⟩]
  exact ⟨_, rfl⟩

theorem exists_ofNumber? {n : Int} (first : 1 ≤ n) (last : n ≤ lastNumber) :
    ∃ d, ofNumber? n = some d := by
  obtain ⟨k, rfl⟩ : ∃ k : Nat, n = k := ⟨n.toNat, by omega⟩
  have pos : 1 ≤ k := by omega
  have all : daysBeforeYear 10000 = lastNumber := by decide
  unfold ofNumber?
  rw [if_pos ⟨first, last⟩, Int.toNat_natCast]
  dsimp only
  have years : k ≤ daysBeforeYear (k / 366 + 1 + 9999 + 1) := by
    have : daysBeforeYear 10000 ≤ daysBeforeYear (k / 366 + 1 + 9999 + 1) :=
      daysBeforeYear_mono (by omega)
    omega
  obtain ⟨y_pos, y_after, y_enough⟩ := yearFrom_spec 9999 _ (daysBeforeYear_guess pos) years
  generalize yearFrom k 9999 (k / 366 + 1) = y at y_pos y_after y_enough
  have y_le : y ≤ 9999 := by
    refine Nat.le_of_not_lt fun late => ?_
    have : daysBeforeYear 10000 ≤ daysBeforeYear y := daysBeforeYear_mono late
    omega
  obtain ⟨z, rfl⟩ : ∃ z, y = z + 1 := ⟨y - 1, by omega⟩
  rw [daysBeforeYear_succ] at y_enough
  -- what is left of the number after the years is a day of the year
  have months : k - daysBeforeYear (z + 1) ≤ daysBeforeMonth ((z + 1 : Nat) : Int) 13 := by
    rw [daysBeforeMonth_thirteen]
    omega
  obtain ⟨m_pos, m_le, m_after, m_enough⟩ :=
    monthFrom_spec 11 1 (show daysBeforeMonth ((z + 1 : Nat) : Int) 1 < _ by
      show 0 < _
      omega) months
  generalize monthFrom _ _ 11 1 = m at m_pos m_le m_after m_enough
  rw [daysBeforeMonth_succ _ m_pos] at m_enough
  exact of?_isSome ⟨by omega, y_le⟩ ⟨m_pos, m_le⟩ ⟨by omega, by omega⟩

theorem number_pos (d : Date) : 1 ≤ d.number := by
  have := d.day_pos
  unfold number
  omega

theorem number_le_last (d : Date) : d.number ≤ lastNumber := by
  have month : d.inMonth < ⟨120000⟩ := by
    have := d.year_le
    have := d.month_le
    show 12 * (d.year : Int) + ((d.month : Int) - 1) < 120000
    omega
  have before := Month.daysBefore_lt d.year_inMonth_pos month
  have all : Month.daysBefore ⟨120000⟩ = lastNumber := by decide
  have := d.day_le_lastDay
  rw [number_eq]
  omega

/-- **A day can be moved by days exactly if its number stays in the range.** -/
theorem shift_isOk {d : Date} {n : Int} :
    (∃ e, d.shift n = .ok e) ↔ 1 ≤ d.number + n ∧ d.number + n ≤ lastNumber := by
  unfold shift
  constructor
  · rintro ⟨e, h⟩
    split at h
    · next found =>
      unfold ofNumber? at found
      split at found
      · next range => exact range
      · cases found
    · cases h
  · rintro ⟨first, last⟩
    obtain ⟨e, found⟩ := exists_ofNumber? first last
    rw [found]
    exact ⟨e, rfl⟩

theorem shift_eq_ok {d e : Date} {n : Int} :
    d.shift n = .ok e ↔ (e.number : Int) = d.number + n := by
  refine ⟨number_of_shift, fun h => ?_⟩
  have first := e.number_pos
  have last := e.number_le_last
  obtain ⟨f, moved⟩ := (shift_isOk (d := d) (n := n)).2 ⟨by omega, by omega⟩
  have same := number_of_shift moved
  rw [moved, ext_number (show f.number = e.number by omega)]

/-! ## the day of another month -/

theorem inside_isOk {m : Month} {n : Nat} (pos : 1 ≤ n) :
    (∃ e, inside m n = .ok e) ↔ 1 ≤ m.year ∧ m.year ≤ 9999 := by
  constructor
  · rintro ⟨e, h⟩
    obtain ⟨hm, -⟩ := inMonth_of_inside h
    have := e.year_pos
    have := e.year_le
    rw [← hm, year_inMonth]
    omega
  · rintro ⟨first, last⟩
    have days := daysInMonth_ge m.year m.number
    have year : ((m.year.toNat : Nat) : Int) = m.year := by omega
    obtain ⟨e, found⟩ := of?_isSome (n := min n m.lastDay) (y := m.year.toNat)
      ⟨by omega, by omega⟩ ⟨m.number_pos, m.number_le⟩
      (by rw [year]; unfold Month.lastDay; omega)
    unfold inside
    rw [found]
    exact ⟨e, rfl⟩

/-- **A day can be moved by months exactly if its year stays in the range.** -/
theorem addMonths_isOk {d : Date} {n : Int} :
    (∃ e, d.addMonths n = .ok e) ↔
      1 ≤ (d.inMonth.shift n).year ∧ (d.inMonth.shift n).year ≤ 9999 :=
  inside_isOk d.day_pos

theorem exists_addMonths {b d e : Date} {months : Int}
    (lower : b.inMonth ≤ d.inMonth.shift months)
    (upper : d.inMonth.shift months ≤ e.inMonth) :
    ∃ f, d.addMonths months = .ok f ∧ f.inMonth = d.inMonth.shift months := by
  have first := b.year_inMonth_pos
  have year := e.year_inMonth
  have last := e.year_le
  rw [Month.le_def] at lower upper
  obtain ⟨f, moved⟩ := addMonths_isOk.2 (show 1 ≤ (d.inMonth.shift months).year ∧
      (d.inMonth.shift months).year ≤ 9999 by
    unfold Month.year at *
    omega)
  exact ⟨f, moved, (inMonth_of_addMonths moved).1⟩

end Date

end Billfold
