import Billfold.Calendar.Month

/-!
# Days and months in order

A day's number is the days before its month and the day of the month.  The months follow each
other without gap, so the order of days is the order of months first.

* `Month.daysBefore`          the days of all months before a month
* `Month.daysBefore_succ`     the next month starts when a month's days are over
* `Date.lt_of_inMonth_lt`     a day of an earlier month is an earlier day
* `Date.ext_inMonth`          month and day of the month make the day
* `Date.number_of_shift`, `Date.inMonth_of_addMonths`   what a moved day is, where it exists
-/

namespace Billfold

/-! ## lengths of years -/

theorem isLeap_iff (y : Nat) : isLeap y = true ↔ 4 ∣ y ∧ (¬ 100 ∣ y ∨ 400 ∣ y) := by
  simp only [isLeap, Bool.and_eq_true, Bool.or_eq_true, beq_iff_eq, bne_iff_ne, ne_eq]
  omega

def daysInYear (y : Nat) : Nat := if isLeap y then 366 else 365

theorem daysInYear_eq (y : Nat) :
    daysInYear y + (if 100 ∣ y then 1 else 0)
      = 365 + (if 4 ∣ y then 1 else 0) + (if 400 ∣ y then 1 else 0) := by
  have h4 : 100 ∣ y → 4 ∣ y := Nat.dvd_trans (by decide)
  have h100 : 400 ∣ y → 100 ∣ y := Nat.dvd_trans (by decide)
  unfold daysInYear
  by_cases e4 : 4 ∣ y <;> by_cases e100 : 100 ∣ y <;> by_cases e400 : 400 ∣ y <;>
    simp_all [isLeap_iff]

theorem daysBeforeYear_succ (y : Nat) :
    daysBeforeYear (y + 2) = daysBeforeYear (y + 1) + daysInYear (y + 1) := by
  have h := daysInYear_eq (y + 1)
  have h4 : (y + 1) / 4 = _ := Nat.succ_div
  have h100 : (y + 1) / 100 = _ := Nat.succ_div
  have h400 : (y + 1) / 400 = _ := Nat.succ_div
  show 365 * (y + 1) + (y + 1) / 4 - (y + 1) / 100 + (y + 1) / 400
    = 365 * y + y / 4 - y / 100 + y / 400 + daysInYear (y + 1)
  rw [h4, h100, h400]
  generalize (if 4 ∣ y + 1 then 1 else 0) = a at *
  generalize (if 100 ∣ y + 1 then 1 else 0) = b at *
  generalize (if 400 ∣ y + 1 then 1 else 0) = c at *
  omega

theorem daysBeforeMonth_thirteen (y : Nat) : daysBeforeMonth y 13 = daysInYear y := by
  unfold daysInYear
  by_cases e : isLeap y = true <;> simp [daysBeforeMonth, daysInMonth, e]

/-! ## months -/

namespace Month

theorem le_def (a b : Month) : a ≤ b ↔ a.index ≤ b.index := Iff.rfl
theorem lt_def (a b : Month) : a < b ↔ a.index < b.index := Iff.rfl

theorem index_shift (m : Month) (n : Int) : (m.shift n).index = m.index + n := rfl

theorem shift_zero (m : Month) : m.shift 0 = m := by
  show (⟨m.index + 0⟩ : Month) = m
  rw [Int.add_zero]

theorem shift_shift (m : Month) (a b : Int) : (m.shift a).shift b = m.shift (a + b) := by
  show (⟨m.index + a + b⟩ : Month) = ⟨m.index + (a + b)⟩
  rw [Int.add_assoc]

theorem lt_shift_one (m : Month) : m < m.shift 1 := by
  rw [lt_def, index_shift]
  omega

theorem shift_neg_one_lt (m : Month) : m.shift (-1) < m := by
  rw [lt_def, index_shift]
  omega

theorem ext_index {a b : Month} (h : a.index = b.index) : a = b := by
  cases a; cases b; exact congrArg Month.mk h

theorem of_year_number (m : Month) : Month.of m.year m.number = m := by
  apply ext_index
  show 12 * (m.index / 12) + ((((m.index % 12).toNat + 1 : Nat) : Int) - 1) = m.index
  omega

/-- the days of all months before a month of the years from 1 -/
def daysBefore (m : Month) : Nat := daysBeforeYear m.year.toNat + daysBeforeMonth m.year m.number

theorem year_shift_one (m : Month) :
    (m.shift 1).year = if m.number = 12 then m.year + 1 else m.year := by
  show (m.index + 1) / 12 = if (m.index % 12).toNat + 1 = 12 then m.index / 12 + 1 else m.index / 12
  split <;> omega

theorem number_shift_one (m : Month) :
    (m.shift 1).number = if m.number = 12 then 1 else m.number + 1 := by
  show ((m.index + 1) % 12).toNat + 1 =
    if (m.index % 12).toNat + 1 = 12 then 1 else (m.index % 12).toNat + 1 + 1
  split <;> omega

theorem daysBefore_succ {m : Month} (h : 1 ≤ m.year) :
    (m.shift 1).daysBefore = m.daysBefore + m.lastDay := by
  unfold daysBefore lastDay
  rw [year_shift_one, number_shift_one]
  by_cases e : m.number = 12
  · obtain ⟨y, hy⟩ : ∃ y : Nat, m.year = (y + 1 : Nat) := ⟨(m.year - 1).toNat, by omega⟩
    have next : (((y + 1 : Nat) : Int) + 1).toNat = y + 2 := by omega
    have whole : daysBeforeMonth (y + 1 : Nat) 12 + daysInMonth (y + 1 : Nat) 12 =
        daysInYear (y + 1) := daysBeforeMonth_thirteen (y + 1)
    have none : daysBeforeMonth ((y + 1 : Nat) + 1) 1 = 0 := rfl
    rw [if_pos e, if_pos e, e, hy, next, Int.toNat_natCast, daysBeforeYear_succ, ← whole, none,
      Nat.add_zero, Nat.add_assoc]
  · rw [if_neg e, if_neg e, daysBeforeMonth_succ _ m.number_pos, Nat.add_assoc]

theorem daysBefore_shift_le {m : Month} (h : 1 ≤ m.year) (n : Nat) :
    m.daysBefore ≤ (m.shift n).daysBefore := by
  induction n with
  | zero =>
    show m.daysBefore ≤ (m.shift 0).daysBefore
    exact Nat.le_of_eq (by rw [shift_zero])
  | succ n ih =>
    have e : m.shift (n + 1 : Nat) = (m.shift n).shift 1 := (shift_shift m n 1).symm
    have hy : 1 ≤ (m.shift n).year := by
      unfold year at h ⊢
      rw [index_shift]
      omega
    rw [e, daysBefore_succ hy]
    omega

theorem daysBefore_lt {a b : Month} (h : 1 ≤ a.year) (lt : a < b) :
    a.daysBefore + a.lastDay ≤ b.daysBefore := by
  rw [lt_def] at lt
  obtain ⟨n, hn⟩ : ∃ n : Nat, b.index = a.index + 1 + n := ⟨(b.index - a.index - 1).toNat, by omega⟩
  have hy : 1 ≤ (a.shift 1).year := by
    unfold year at h ⊢
    rw [index_shift]
    omega
  have e : (a.shift 1).shift n = b := ext_index hn.symm
  rw [← daysBefore_succ h, ← e]
  exact daysBefore_shift_le hy n

end Month

/-! ## days -/

namespace Date

theorem year_inMonth (d : Date) : d.inMonth.year = d.year := Month.year_of _ d.month_pos d.month_le

theorem number_inMonth (d : Date) : d.inMonth.number = d.month :=
  Month.number_of _ d.month_pos d.month_le

theorem lastDay_inMonth (d : Date) : d.inMonth.lastDay = daysInMonth d.year d.month := by
  unfold Month.lastDay
  rw [year_inMonth, number_inMonth]

theorem year_inMonth_pos (d : Date) : 1 ≤ d.inMonth.year := by
  rw [year_inMonth]
  have := d.year_pos
  omega

theorem day_le_lastDay (d : Date) : d.day ≤ d.inMonth.lastDay := by
  rw [lastDay_inMonth]
  exact d.day_le

/-- **A day's number is the days before its month and the day of the month.** -/
theorem number_eq (d : Date) : d.number = d.inMonth.daysBefore + d.day := by
  unfold number Month.daysBefore
  rw [year_inMonth, number_inMonth, Int.toNat_natCast]

theorem lt_of_inMonth_lt {d e : Date} (h : d.inMonth < e.inMonth) : d < e := by
  have hb := Month.daysBefore_lt d.year_inMonth_pos h
  have hd := d.day_le_lastDay
  have he := e.day_pos
  rw [lt_def, number_eq, number_eq]
  omega

theorem inMonth_le_of_le {d e : Date} (h : d ≤ e) : d.inMonth ≤ e.inMonth := by
  rw [le_def] at h
  rw [Month.le_def]
  have hc : ¬ e.inMonth < d.inMonth := by
    intro lt
    have := lt_of_inMonth_lt lt
    rw [lt_def] at this
    omega
  rw [Month.lt_def] at hc
  omega

theorem day_le_of_le {d e : Date} (h : d ≤ e) (same : d.inMonth = e.inMonth) :
    d.day ≤ e.day := by
  rw [le_def, number_eq, number_eq, same] at h
  omega

theorem ext_inMonth {d e : Date} (hm : d.inMonth = e.inMonth) (hd : d.day = e.day) : d = e := by
  have hy : d.year = e.year := by
    have := congrArg Month.year hm
    rw [year_inMonth, year_inMonth] at this
    omega
  have hn : d.month = e.month := by
    have := congrArg Month.number hm
    rwa [number_inMonth, number_inMonth] at this
  cases d; cases e; simp_all

theorem ext_number {d e : Date} (h : d.number = e.number) : d = e := by
  have h1 : d.inMonth ≤ e.inMonth := inMonth_le_of_le (Nat.le_of_eq h)
  have h2 : e.inMonth ≤ d.inMonth := inMonth_le_of_le (Nat.le_of_eq h.symm)
  rw [Month.le_def] at h1 h2
  have hm : d.inMonth = e.inMonth := Month.ext_index (Int.le_antisymm h1 h2)
  rw [number_eq, number_eq, hm] at h
  exact ext_inMonth hm (Nat.add_left_cancel h)

theorem eq_iff_number {d e : Date} : d = e ↔ d.number = e.number :=
  ⟨fun h => congrArg number h, ext_number⟩

/-! ## moved days -/

theorem inMonth_firstOfMonth (d : Date) : d.firstOfMonth.inMonth = d.inMonth := rfl

theorem firstOfMonth_le {d e : Date} (same : e.inMonth = d.inMonth) :
    d.firstOfMonth.number ≤ e.number := by
  have first : d.firstOfMonth.day = 1 := rfl
  have := e.day_pos
  rw [number_eq, number_eq, inMonth_firstOfMonth, same, first]
  omega

theorem inMonth_withDay (d : Date) (day : Nat) (pos : 1 ≤ day) :
    (d.withDay day pos).inMonth = d.inMonth :=
  rfl

theorem day_withDay (d : Date) (day : Nat) (pos : 1 ≤ day) :
    (d.withDay day pos).day = min day d.inMonth.lastDay := by
  rw [lastDay_inMonth]
  rfl

theorem fields_of_of? {y m n : Nat} {d : Date} (h : of? y m n = some d) :
    d.year = y ∧ d.month = m ∧ d.day = n := by
  unfold of? at h
  split at h
  · cases h; exact ⟨rfl, rfl, rfl⟩
  · cases h

theorem number_of_ofNumber? {n : Int} {d : Date} (h : ofNumber? n = some d) :
    (d.number : Int) = n := by
  unfold ofNumber? at h
  split at h
  · next range =>
    obtain ⟨hy, hm, hd⟩ := fields_of_of? h
    have pos := d.day_pos
    unfold number
    rw [hd, hy, hm] at *
    omega
  · cases h

theorem number_of_shift {d e : Date} {n : Int} (h : d.shift n = .ok e) :
    (e.number : Int) = d.number + n := by
  unfold shift at h
  split at h
  · next found => cases h; exact number_of_ofNumber? found
  · cases h

theorem inMonth_of_inside {m : Month} {n : Nat} {d : Date} (h : inside m n = .ok d) :
    d.inMonth = m ∧ d.day = min n m.lastDay := by
  unfold inside at h
  split at h
  · next found =>
    cases h
    obtain ⟨hy, hm, hd⟩ := fields_of_of? found
    have pos := d.year_pos
    refine ⟨?_, hd⟩
    have hyear : (d.year : Int) = m.year := by omega
    unfold inMonth
    rw [hyear, hm, Month.of_year_number]
  · cases h

theorem inMonth_of_addMonths {d e : Date} {n : Int} (h : d.addMonths n = .ok e) :
    e.inMonth = d.inMonth.shift n ∧ e.day = min d.day e.inMonth.lastDay := by
  obtain ⟨hm, hd⟩ := inMonth_of_inside h
  exact ⟨hm, by rw [hd, hm]⟩

end Date

end Billfold
