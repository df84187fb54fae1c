import Billfold.Proofs.Calendar.Exists

/-!
# Moving by months

A day moved by months keeps its number in the month, or comes to the last day of a month that is too
short for it.  The month itself is moved by adding to its index, which loses nothing: what a day
loses on its way it loses to short months.

* `Month.carry`, `Date.addSpan`   moving by years and months apart, as one does on paper
* `Date.addMonths_eq_addSpan`     adding to the index of the month does the same
* `Date.addMonths_eq_ok`          where a day is moved to, told by month and day
* `Date.addMonths_mono`           later days are not moved to earlier ones
* `Date.addMonths_lt_iff`         more months move a day further
* `Date.addMonths_addMonths`      two moves are one, if the month on the way is long enough
* `Date.day_of_addMonths_twice`   else they lead to the same month, cut to the length of that one
* `Date.addMonths_by_index`       all of these together
-/

namespace Billfold

/-! ## years and months apart -/

/-- the years to go on for a month number past December, or back for one before January -/
def Month.carry (number : Int) : Int :=
  if 12 < number then 1 else if number < 1 then -1 else 0

/-- the same day after whole years and fewer than twelve months more, forwards or backwards -/
def Date.addSpan (d : Date) (years months : Int) : Except Fault Date :=
  let number := d.month + months
  clampDay (d.year + years + Month.carry number) (number - 12 * Month.carry number) d.day

namespace Month

variable {m : Month} {years months : Int}

theorem year_shift_span (back : -12 < months) (on : months < 12) :
    (m.shift (12 * years + months)).year = m.year + years + carry (m.number + months) := by
  unfold year number carry
  rw [index_shift]
  split
  · omega
  · split <;> omega

theorem number_shift_span (back : -12 < months) (on : months < 12) :
    ((m.shift (12 * years + months)).number : Int) =
      m.number + months - 12 * carry (m.number + months) := by
  unfold number carry
  rw [index_shift]
  split
  · omega
  · split <;> omega

theorem lastDay_le (m : Month) : m.lastDay ≤ 31 := daysInMonth_le m.year m.number

theorem year_within_iff (m : Month) :
    (1 ≤ m.year ∧ m.year ≤ 9999) ↔
      ∃ year month : Nat, (1 ≤ year ∧ year ≤ 9999) ∧ (1 ≤ month ∧ month ≤ 12) ∧
        m.index = 12 * (year : Int) + ((month : Int) - 1) := by
  constructor
  · rintro ⟨first, last⟩
    have index := congrArg index m.of_year_number
    refine ⟨m.year.toNat, m.number, by omega, ⟨m.number_pos, m.number_le⟩, ?_⟩
    rw [← index]
    show 12 * m.year + ((m.number : Int) - 1) = _
    omega
  · rintro ⟨year, month, years, months, index⟩
    unfold Month.year
    omega

end Month

namespace Date

variable {d e f mid : Date} {a b n : Int}

theorem inside_eq_clampDay (m : Month) (day : Nat) :
    inside m day = clampDay m.year m.number day := by
  have last : lastDayOfMonth m.year m.number = .ok m.lastDay := by
    have := m.number_pos
    have := m.number_le
    unfold lastDayOfMonth
    rw [if_pos ⟨by omega, by omega⟩, Int.toNat_natCast]
    rfl
  have days := m.lastDay_le
  have clamped : min (day : Int) m.lastDay = (min day m.lastDay : Nat) := by omega
  have short : fits32 (min day m.lastDay : Nat) = true := by
    unfold fits32
    simp only [Bool.and_eq_true, decide_eq_true_eq]
    omega
  unfold inside clampDay
  rw [last]
  dsimp only [bind, Except.bind]
  rw [clamped, short, Int.toNat_natCast, Int.toNat_natCast]
  by_cases narrow : fits32 m.year = true
  · rw [narrow]
    rfl
  · -- a year that wide is no year of a day
    have wide : of? m.year.toNat m.number (min day m.lastDay) = none := by
      unfold fits32 at narrow
      simp only [Bool.and_eq_true, decide_eq_true_eq] at narrow
      unfold of?
      rw [dif_neg (by omega)]
    rw [wide, Bool.eq_false_iff.2 narrow]
    rfl

theorem addSpan_eq_addMonths {years months : Int} (back : -12 < months) (on : months < 12) :
    d.addSpan years months = d.addMonths (12 * years + months) := by
  unfold addSpan addMonths
  rw [inside_eq_clampDay, Month.year_shift_span back on, Month.number_shift_span back on,
    year_inMonth, number_inMonth]

/-- **Moving by months is moving by whole years and by the months that are left,** both in the
direction of the whole. -/
theorem addMonths_eq_addSpan (d : Date) (n : Int) :
    d.addMonths n = d.addSpan (n.tdiv 12) (n.tmod 12) := by
  have back : -12 < n.tmod 12 := Int.lt_tmod_of_pos n (by decide)
  have on : n.tmod 12 < 12 := Int.tmod_lt_of_pos n (by decide)
  rw [addSpan_eq_addMonths back on, Int.mul_tdiv_add_tmod]

/-! ## where a day is moved to -/

theorem inside_eq_ok {m : Month} {day : Nat} :
    inside m day = .ok e ↔ e.inMonth = m ∧ e.day = min day m.lastDay := by
  refine ⟨inMonth_of_inside, ?_⟩
  rintro ⟨rfl, here⟩
  unfold inside
  rw [← here, year_inMonth, number_inMonth, Int.toNat_natCast, of?_self]

/-- **A day is moved to the month so many further on, and to its own day of that month or to the
last one.** -/
theorem addMonths_eq_ok :
    d.addMonths n = .ok e ↔
      e.inMonth = d.inMonth.shift n ∧ e.day = min d.day e.inMonth.lastDay := by
  unfold addMonths
  rw [inside_eq_ok]
  exact and_congr_right fun month => by rw [month]

/-! ## the order of moved days -/

theorem le_of_day_le (same : d.inMonth = e.inMonth) (le : d.day ≤ e.day) : d ≤ e := by
  rw [le_def, number_eq, number_eq, same]
  omega

theorem lt_of_shift_lt {d' : Date} (lt : d.inMonth.shift a < d'.inMonth.shift b)
    (moved : d.addMonths a = .ok e) (moved' : d'.addMonths b = .ok f) : e < f := by
  apply lt_of_inMonth_lt
  rwa [(inMonth_of_addMonths moved).1, (inMonth_of_addMonths moved').1]

theorem lt_of_addMonths (lt : a < b) (moved : d.addMonths a = .ok e)
    (moved' : d.addMonths b = .ok f) : e < f :=
  lt_of_shift_lt (Int.add_lt_add_left lt _) moved moved'

theorem addMonths_mono {d' e' : Date} (le : d ≤ d') (moved : d.addMonths n = .ok e)
    (moved' : d'.addMonths n = .ok e') : e ≤ e' := by
  obtain ⟨month, day⟩ := inMonth_of_addMonths moved
  obtain ⟨month', day'⟩ := inMonth_of_addMonths moved'
  have months := inMonth_le_of_le le
  rw [Month.le_def] at months
  rcases Int.lt_or_eq_of_le months with before | same
  · exact Nat.le_of_lt (lt_of_shift_lt (Int.add_lt_add_right before n) moved moved')
  · -- both days are cut at the length of one month
    have same : d.inMonth = d'.inMonth := Month.ext_index same
    have here : e.inMonth = e'.inMonth := by rw [month, month', same]
    have days := day_le_of_le le same
    refine le_of_day_le here ?_
    rw [day, day', here]
    omega

theorem addMonths_lt_iff (moved : d.addMonths a = .ok e) (moved' : d.addMonths b = .ok f) :
    e < f ↔ a < b := by
  refine ⟨fun lt => Int.lt_of_not_ge fun le => ?_, fun lt => lt_of_addMonths lt moved moved'⟩
  rcases Int.lt_or_eq_of_le le with gt | rfl
  · exact Nat.lt_asymm lt (lt_of_addMonths gt moved' moved)
  · rw [moved] at moved'
    cases moved'
    exact Nat.lt_irrefl _ lt

/-! ## moving twice -/

theorem addMonths_addMonths (moved : d.addMonths a = .ok mid)
    (long : d.day ≤ mid.inMonth.lastDay) (b : Int) : mid.addMonths b = d.addMonths (a + b) := by
  obtain ⟨month, day⟩ := inMonth_of_addMonths moved
  rw [Nat.min_eq_left long] at day
  unfold addMonths
  rw [month, day, Month.shift_shift]

theorem addMonths_isOk_twice (moved : d.addMonths a = .ok mid) :
    (∃ e, mid.addMonths b = .ok e) ↔ ∃ f, d.addMonths (a + b) = .ok f := by
  rw [addMonths_isOk, addMonths_isOk, (inMonth_of_addMonths moved).1, Month.shift_shift]

/-- **Two moves lead to the month of both at once,** but to no later day of it than the month on the
way has. -/
theorem day_of_addMonths_twice (moved : d.addMonths a = .ok mid) (again : mid.addMonths b = .ok e)
    (once : d.addMonths (a + b) = .ok f) :
    e.inMonth = f.inMonth ∧ e.day = min f.day mid.inMonth.lastDay := by
  obtain ⟨month, day⟩ := inMonth_of_addMonths moved
  obtain ⟨month', day'⟩ := inMonth_of_addMonths again
  obtain ⟨month'', day''⟩ := inMonth_of_addMonths once
  have same : e.inMonth = f.inMonth := by rw [month', month'', month, Month.shift_shift]
  refine ⟨same, ?_⟩
  rw [day', day'', day, same]
  omega

/-- **Months are added by index, and the day is clamped.**  Moving a day by months is moving it by
the whole years and by the months left, with a carry between the two.  It is possible exactly if the
months added to the index of the day's month make a month of the years 1 to 9999; it leads to that
month, and there to the day's own number or to the last.  Days keep their order, and more months
lead further.  A second move is possible exactly if both at once are, and leads to the same day if
the month on the way reaches the number of the first day.  If it does not, the day is in the same
month and not later: its number is cut to the length of the month on the way. -/
theorem addMonths_by_index (d : Date) :
    (∀ n, d.addMonths n = d.addSpan (n.tdiv 12) (n.tmod 12)) ∧
    (∀ n, (∃ e, d.addMonths n = .ok e) ↔
      ∃ year month : Nat, (1 ≤ year ∧ year ≤ 9999) ∧ (1 ≤ month ∧ month ≤ 12) ∧
        12 * (d.year : Int) + ((d.month : Int) - 1) + n =
          12 * (year : Int) + ((month : Int) - 1)) ∧
    (∀ n e, d.addMonths n = .ok e ↔
      12 * (d.year : Int) + ((d.month : Int) - 1) + n =
          12 * (e.year : Int) + ((e.month : Int) - 1) ∧
        e.day = min d.day (daysInMonth e.year e.month)) ∧
    (∀ n d' e e', d ≤ d' → d.addMonths n = .ok e → d'.addMonths n = .ok e' → e ≤ e') ∧
    (∀ a b e f, d.addMonths a = .ok e → d.addMonths b = .ok f → (e < f ↔ a < b)) ∧
    ∀ a b mid, d.addMonths a = .ok mid →
      ((∃ e, mid.addMonths b = .ok e) ↔ ∃ f, d.addMonths (a + b) = .ok f) ∧
      (d.day ≤ daysInMonth mid.year mid.month → mid.addMonths b = d.addMonths (a + b)) ∧
      ∀ e f, mid.addMonths b = .ok e → d.addMonths (a + b) = .ok f →
        e.inMonth = f.inMonth ∧ e.day = min f.day (daysInMonth mid.year mid.month) ∧ e ≤ f := by
  refine ⟨d.addMonths_eq_addSpan, fun n => ?_, fun n e => ?_,
    fun n d' e e' le moved moved' => addMonths_mono le moved moved',
    fun a b e f moved moved' => addMonths_lt_iff moved moved', fun a b mid moved => ?_⟩
  · rw [addMonths_isOk, Month.year_within_iff]
    rfl
  · rw [addMonths_eq_ok, lastDay_inMonth]
    refine and_congr_left fun _ => ⟨fun month => (congrArg Month.index month).symm, fun index => ?_⟩
    exact Month.ext_index index.symm
  · rw [← lastDay_inMonth]
    refine ⟨addMonths_isOk_twice moved, fun long => addMonths_addMonths moved long b, ?_⟩
    intro e f again once
    obtain ⟨same, day⟩ := day_of_addMonths_twice moved again once
    exact ⟨same, day, le_of_day_le same (by omega)⟩

/-- from 31 January 2024 a month leads to the leap day and another one to 29 March, but both at once
to 31 March; 23 months back lead past two turns of the year -/
theorem addMonths_by_index_january :
    let past := (of? 2022 2 28).get rfl
    let january := (of? 2024 1 31).get rfl
    let february := (of? 2024 2 29).get rfl
    let march := (of? 2024 3 29).get rfl
    let last := (of? 2024 3 31).get rfl
    (january.addSpan (-1) (-11) = .ok past ∧ january.addMonths (-23) = .ok past) ∧
      (january.addMonths 1 = .ok february ∧
        february.day = min january.day (daysInMonth february.year february.month)) ∧
      (january ≤ february ∧ february.addMonths 1 = .ok march ∧ february ≤ march) ∧
      (past < february ↔ (-23 : Int) < 1) ∧
      (january.addMonths (1 + 1) = .ok last ∧
        march.day = min last.day (daysInMonth february.year february.month) ∧ march ≤ last) ∧
      (january.addMonths 2 = .ok last ∧ last.addMonths (-1) = january.addMonths (2 + -1)) := by
  intro past january february march last
  obtain ⟨span, -, told, mono, order, twice⟩ := addMonths_by_index january
  have back : january.addMonths (-23) = .ok past := addMonths_eq_ok.2 (by decide)
  have on : january.addMonths 1 = .ok february := addMonths_eq_ok.2 (by decide)
  have again : february.addMonths 1 = .ok march := addMonths_eq_ok.2 (by decide)
  have once : january.addMonths (1 + 1) = .ok last := addMonths_eq_ok.2 (by decide)
  have after : january ≤ february := by decide
  obtain ⟨-, -, kept⟩ := twice 1 1 february on
  obtain ⟨-, long, -⟩ := twice 2 (-1) last once
  exact ⟨⟨(span (-23)).symm.trans back, back⟩, ⟨on, ((told 1 february).1 on).2⟩,
    ⟨after, again, mono 1 february february march after on again⟩,
    order (-23) 1 past february back on, ⟨once, (kept march last again once).2⟩,
    once, long (by decide)⟩

end Date

end Billfold
