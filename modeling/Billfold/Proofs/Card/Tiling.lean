import Mathlib.Logic.ExistsUnique
import Mathlib.Tactic.Choose
import Billfold.Proofs.Card.Window
import Billfold.Proofs.Card.Defined

/-!
# Bills and windows, month after month

In months that follow each other the charges of each bill make up a run of days, and so do the days
of each window.  The two are not the same, but in both each run starts where the one before it ends,
so the runs tile the calendar.

* `Runs`               runs of numbers that follow each other, and the one that holds a number
* `Date.Consecutive`   days of months that follow each other
* `Policy.turn`        the first day of a month whose charges go to the next bill
* `paid_iff_between`   the charges of one bill, from one turn to the next
* `bills_share_days`   the bills of months that follow each other
* `windows_tile`       their windows
-/

namespace Billfold

/-! ## runs -/

/-- runs of numbers, from `lo i` to before `hi i`, each of which starts where the one before ends -/
structure Runs (lo hi : Nat → Nat) (n : Nat) : Prop where
  nonempty : ∀ i ≤ n, lo i < hi i
  meet : ∀ i < n, hi i = lo (i + 1)

namespace Runs

variable {lo hi : Nat → Nat} {n i j x : Nat}

theorem upto (h : Runs lo hi (n + 1)) : Runs lo hi n :=
  ⟨fun i le => h.nonempty i (by omega), fun i lt => h.meet i (by omega)⟩

theorem hi_le_lo (h : Runs lo hi n) (lt : i < j) (le : j ≤ n) : hi i ≤ lo j := by
  induction j with
  | zero => cases lt
  | succ j ih =>
    have meets := h.meet j le
    rcases Nat.lt_or_eq_of_le (Nat.le_of_lt_succ lt) with before | rfl
    · have := ih before (by omega)
      have := h.nonempty j (by omega)
      omega
    · omega

theorem exists_between (h : Runs lo hi n) (first : lo 0 ≤ x) (last : x < hi n) :
    ∃ i ≤ n, lo i ≤ x ∧ x < hi i := by
  induction n with
  | zero => exact ⟨0, Nat.le_refl 0, first, last⟩
  | succ n ih =>
    by_cases later : lo (n + 1) ≤ x
    · exact ⟨n + 1, Nat.le_refl _, later, last⟩
    · have meets := h.meet n (Nat.lt_succ_self n)
      obtain ⟨i, le, here⟩ := ih h.upto (by omega)
      exact ⟨i, Nat.le_succ_of_le le, here⟩

/-- **The numbers from the start of the first run to the end of the last are those that exactly one
run holds.** -/
theorem existsUnique_iff (h : Runs lo hi n) :
    (lo 0 ≤ x ∧ x < hi n) ↔ ∃! i, i ≤ n ∧ lo i ≤ x ∧ x < hi i := by
  constructor
  · rintro ⟨first, last⟩
    obtain ⟨i, le, here⟩ := h.exists_between first last
    refine ⟨i, ⟨le, here⟩, ?_⟩
    rintro j ⟨le', there⟩
    rcases Nat.lt_trichotomy j i with lt | eq | gt
    · have := h.hi_le_lo lt le
      omega
    · exact eq
    · have := h.hi_le_lo gt le'
      omega
  · rintro ⟨i, ⟨le, here⟩, -⟩
    constructor
    · rcases Nat.eq_zero_or_pos i with rfl | pos
      · exact here.1
      · have := h.hi_le_lo pos le
        have := h.nonempty 0 (Nat.zero_le n)
        omega
    · rcases Nat.eq_or_lt_of_le le with rfl | lt
      · exact here.2
      · have := h.hi_le_lo lt (Nat.le_refl n)
        have := h.nonempty n (Nat.le_refl n)
        omega

end Runs

/-! ## days of months that follow each other -/

def Date.Consecutive (days : Nat → Date) (n : Nat) : Prop :=
  ∀ i < n, (days (i + 1)).inMonth = (days i).inMonth.shift 1

instance (days : Nat → Date) (n : Nat) : Decidable (Date.Consecutive days n) :=
  inferInstanceAs (Decidable (∀ i < n, _))

namespace Date

variable {days : Nat → Date} {n i : Nat}

theorem Consecutive.le (follow : Consecutive days n) (le : i ≤ n) :
    (days 0).inMonth ≤ (days i).inMonth := by
  induction i with
  | zero => exact Int.le_refl _
  | succ i ih =>
    have before := ih (by omega)
    have next := congrArg Month.index (follow i le)
    rw [Month.le_def] at before ⊢
    rw [Month.index_shift] at next
    omega

/-- the later of two days -/
instance : Max Date := maxOfLe

theorem number_max (d e : Date) : (max d e).number = max d.number e.number := by
  show (if d ≤ e then e else d).number = _
  split
  · next le => exact (Nat.max_eq_right le).symm
  · next lt => exact (Nat.max_eq_left (Nat.le_of_not_le lt)).symm

end Date

/-! ## the turn of a month -/

namespace Policy

/-- the first day of a month whose charges go to the next bill: the cutoff, or the first of the
month if the statement closes before it -/
def turn (p : Policy) (d : Date) : Except Fault (Option Date) :=
  Option.map (max d.firstOfMonth) <$> p.cutoff d

variable {p : Policy} {day : DueDay} {d e t : Date}

theorem turn_congr (same : d.inMonth = e.inMonth) : p.turn d = p.turn e := by
  have first : d.firstOfMonth = e.firstOfMonth := Date.ext_inMonth same rfl
  have cut : p.cutoff d = p.cutoff e := by
    unfold cutoff
    split
    · rfl
    · next day _ => rw [day.inMonthOf_congr same]
  unfold turn
  rw [first, cut]

theorem exists_turn (h : p.dueDay = some day) (lt : p.offset < (day.inMonthOf d).number) :
    ∃ t, p.turn d = .ok (some t) := by
  obtain ⟨close, hc⟩ := (cutoff_isOk h).2 lt
  obtain ⟨c, rfl, -⟩ := number_of_cutoff h hc
  exact ⟨_, Except.map_eq_ok.2 ⟨some c, hc, rfl⟩⟩

/-- **The turn lies in its month**, and the charges of the month that come from then on are those
that go to the next bill. -/
theorem turn_spec (h : p.dueDay = some day) (ht : p.turn d = .ok (some t)) :
    p.offset < (day.inMonthOf d).number ∧ t.inMonth = d.inMonth ∧
      ∀ charged : Date, charged.inMonth = d.inMonth →
        (t ≤ charged ↔ (day.inMonthOf d).number ≤ charged.number + p.offset) := by
  obtain ⟨close, hc, e⟩ := Except.map_eq_ok.1 ht
  obtain ⟨c, rfl, number⟩ := number_of_cutoff h hc
  cases e
  have turn := Date.number_max d.firstOfMonth c
  have first := Date.firstOfMonth_le (day.inMonth_inMonthOf d)
  refine ⟨(cutoff_isOk h).1 ⟨_, hc⟩, ?_, fun charged same => ?_⟩
  · have lower : d.firstOfMonth.inMonth ≤ (max d.firstOfMonth c).inMonth :=
      Date.inMonth_le_of_le (by rw [Date.le_def]; omega)
    have upper : (max d.firstOfMonth c).inMonth ≤ (day.inMonthOf d).inMonth :=
      Date.inMonth_le_of_le (by rw [Date.le_def]; omega)
    exact Month.ext_index (Int.le_antisymm upper lower)
  · have := Date.firstOfMonth_le same
    rw [Date.le_def]
    omega

end Policy

section
variable {p : Policy} {day : DueDay} {a b t u charged : Date} {month : Option Date}

/-- **The charges of one bill** that are not deferred are those from the turn of the month before to
the turn of its own. -/
theorem paid_iff_between (h : p.dueDay = some day) (next : b.inMonth = a.inMonth.shift 1)
    (ha : p.turn a = .ok (some t)) (hb : p.turn b = .ok (some u)) :
    resolveDue (some p) ⟨charged, false, month⟩ = .ok (some (day.inMonthOf b)) ↔
      t ≤ charged ∧ charged < u := by
  obtain ⟨lt, t_month, from_t⟩ := Policy.turn_spec h ha
  obtain ⟨lt', u_month, from_u⟩ := Policy.turn_spec h hb
  have index : b.inMonth.index = a.inMonth.index + 1 := congrArg Month.index next
  have here (same : charged.inMonth = a.inMonth) : charged < u :=
    Date.lt_of_inMonth_lt (by rw [same, u_month, next]; exact Month.lt_shift_one _)
  have there (same : charged.inMonth = b.inMonth) : t ≤ charged :=
    Nat.le_of_lt <| Date.lt_of_inMonth_lt (by rw [same, t_month, next]; exact Month.lt_shift_one _)
  constructor
  · intro hr
    rcases (paid_eq_iff h hr).1 rfl with ⟨month, rolls⟩ | ⟨same, before⟩
    · have same : charged.inMonth = a.inMonth := by
        have := congrArg Month.index month
        rw [Month.index_shift] at this
        exact Month.ext_index (by omega)
      rw [day.inMonthOf_congr same] at rolls
      exact ⟨(from_t charged same).2 rolls, here same⟩
    · rw [← day.inMonthOf_congr same] at before
      refine ⟨there same.symm, Nat.lt_of_not_le fun later => ?_⟩
      have := (from_u charged same.symm).1 later
      omega
  · rintro ⟨after, before⟩
    have lower := Date.inMonth_le_of_le after
    have upper := Date.inMonth_le_of_le (Nat.le_of_lt before)
    rw [t_month, Month.le_def] at lower
    rw [u_month, Month.le_def] at upper
    rcases Int.lt_or_eq_of_le lower with later | eq
    · have same : charged.inMonth = b.inMonth := Month.ext_index (by omega)
      have due := day.inMonthOf_congr same
      have open_ := mt (from_u charged same).2 (Nat.not_le_of_lt before)
      rw [← due] at open_ lt' ⊢
      exact resolveDue_of_own h lt' rfl (Nat.lt_of_not_le open_)
    · have same : charged.inMonth = a.inMonth := Month.ext_index eq.symm
      have rolls := (from_t charged same).1 after
      have month : charged.inMonth.shift 1 = b.inMonth := by rw [same, next]
      obtain ⟨e, moved, there⟩ := Date.exists_addMonths (b := b) (e := b)
        (Int.le_of_eq (congrArg Month.index month.symm)) (Int.le_of_eq (congrArg Month.index month))
      rw [← day.inMonthOf_congr same] at rolls lt
      rw [← day.inMonthOf_congr (there.trans month)]
      exact resolveDue_of_next h moved lt (.inr rolls)

end

/-- **The bills of months that follow each other.**  If the first of the months has a cutoff, all of
them have a turn.  A charge that is not deferred is paid on the due day of a month exactly if it
comes from the turn of the month before on, and before the turn of that month: so the charges of
each bill make up one run of days, which is never empty, and the next run starts where it ends.  The
charges from the first turn to before the last are those that are on exactly one of the bills. -/
theorem bills_share_days {p : Policy} {day : DueDay} {days : Nat → Date} {n : Nat}
    {r : Option Date} (h : p.dueDay = some day) (follow : Date.Consecutive days (n + 1))
    (first : p.cutoff (days 0) = .ok r) :
    ∃ turns : Nat → Date,
      (∀ i ≤ n + 1, ∀ d, d.inMonth = (days i).inMonth → p.turn d = .ok (some (turns i))) ∧
      (∀ i ≤ n, turns i < turns (i + 1) ∧ ∀ charged month,
        resolveDue (some p) ⟨charged, false, month⟩ =
            .ok (some (day.inMonthOf (days (i + 1)))) ↔
          turns i ≤ charged ∧ charged < turns (i + 1)) ∧
      ∀ charged month, (turns 0 ≤ charged ∧ charged < turns (n + 1)) ↔
        ∃! i, i ≤ n ∧ resolveDue (some p) ⟨charged, false, month⟩ =
          .ok (some (day.inMonthOf (days (i + 1)))) := by
  have reach := (Policy.cutoff_isOk h).1 ⟨r, first⟩
  have turned (i : Nat) (le : i ≤ n + 1) : ∃ t, p.turn (days i) = .ok (some t) :=
    Policy.exists_turn h (Nat.lt_of_lt_of_le reach (day.inMonthOf_le (follow.le le)))
  have : Nonempty Date := ⟨days 0⟩
  choose! turns turned using turned
  have paid (i : Nat) (le : i ≤ n) (charged : Date) (month : Option Date) :
      resolveDue (some p) ⟨charged, false, month⟩ =
          .ok (some (day.inMonthOf (days (i + 1)))) ↔
        turns i ≤ charged ∧ charged < turns (i + 1) :=
    paid_iff_between h (follow i (Nat.lt_succ_of_le le)) (turned i (Nat.le_succ_of_le le))
      (turned (i + 1) (Nat.succ_le_succ le))
  have runs : Runs (fun i => (turns i).number) (fun i => (turns (i + 1)).number) n := by
    refine ⟨fun i le => ?_, fun i _ => rfl⟩
    apply Date.lt_of_inMonth_lt
    rw [(Policy.turn_spec h (turned i (Nat.le_succ_of_le le))).2.1,
      (Policy.turn_spec h (turned (i + 1) (Nat.succ_le_succ le))).2.1,
      follow i (Nat.lt_succ_of_le le)]
    exact Month.lt_shift_one _
  refine ⟨turns, fun i le d same => ?_, fun i le => ⟨runs.nonempty i le, paid i le⟩,
    fun charged month => ?_⟩
  · rw [Policy.turn_congr same]
    exact turned i le
  · refine runs.existsUnique_iff.trans (existsUnique_congr fun i => ?_)
    exact and_congr_right fun le => (paid i le charged month).symm

/-- a card due on the last day of a month whose statement closes 29 days before -/
def Policy.monthEnd : Policy := ⟨some ⟨31, by decide⟩, some 29⟩

/-- the first days of January, February and March 2024 -/
def leapWinter : Nat → Date
  | 0 => (Date.of? 2024 1 1).get rfl
  | 1 => (Date.of? 2024 2 1).get rfl
  | _ => (Date.of? 2024 3 1).get rfl

/-- the statement of February closes in January, so February begins with its turn; the turn of March
is on the second, and the bill of March takes the days between -/
theorem bills_share_days_leap :
    let february := leapWinter 1
    let march := (Date.of? 2024 3 2).get rfl
    let due := (Date.of? 2024 3 31).get rfl
    Policy.monthEnd.cutoff february = .ok (some ((Date.of? 2024 1 31).get rfl)) ∧
      Date.Consecutive leapWinter 2 ∧ ∃ r, Policy.monthEnd.cutoff (leapWinter 0) = .ok r ∧
      ∀ charged month, resolveDue (some Policy.monthEnd) ⟨charged, false, month⟩ = .ok (some due) ↔
        february ≤ charged ∧ charged < march := by
  intro february march due
  have closed : Policy.monthEnd.cutoff february = .ok (some ((Date.of? 2024 1 31).get rfl)) := by
    decide +kernel
  have follow : Date.Consecutive leapWinter 2 := by decide
  have first :
      Policy.monthEnd.cutoff (leapWinter 0) = .ok (some ((Date.of? 2024 1 2).get rfl)) := by
    decide +kernel
  obtain ⟨turns, turned, paid, -⟩ := bills_share_days (n := 1) rfl follow first
  have begins : Policy.monthEnd.turn february = .ok (some february) := by decide +kernel
  have ends : Policy.monthEnd.turn (leapWinter 2) = .ok (some march) := by decide +kernel
  have run := (paid 1 (by decide)).2
  rw [turned 1 (by decide) february rfl] at begins
  rw [turned 2 (by decide) (leapWinter 2) rfl] at ends
  rw [Option.some.inj (Except.ok.inj begins), Option.some.inj (Except.ok.inj ends)] at run
  exact ⟨closed, follow, _, first, run⟩

/-! ## the windows of months that follow each other -/

section
variable {p : Policy} {day : DueDay} {d e : Date} {v w : Window}

theorem Policy.exists_window {r : Option Window} (h : p.dueDay = some day)
    (le : d.inMonth ≤ e.inMonth) (hw : p.window (day.inMonthOf d) = .ok r) :
    ∃ v, p.window (day.inMonthOf e) = .ok (some v) := by
  obtain ⟨lt, before, moved, reach⟩ := (window_isOk h).1 ⟨r, hw⟩
  have month := (Date.inMonth_of_addMonths moved).1
  have back : before.inMonth ≤ (day.inMonthOf e).inMonth.shift (-1) := by
    rw [Month.le_def] at le ⊢
    rw [month, day.inMonth_inMonthOf, day.inMonth_inMonthOf, Month.index_shift, Month.index_shift]
    omega
  obtain ⟨b, there, same⟩ := Date.exists_addMonths back
    (Int.le_of_lt (day.inMonthOf e).inMonth.shift_neg_one_lt)
  rw [← same] at back
  obtain ⟨s, hs⟩ := (window_isOk h).2 ⟨Nat.lt_of_lt_of_le lt (day.inMonthOf_le le), b, there,
    Nat.lt_of_lt_of_le reach (day.inMonthOf_le back)⟩
  obtain ⟨_, v, rfl, -⟩ := ends_of_window h hs
  exact ⟨v, hs⟩

theorem Window.number_last (h : p.dueDay = some day)
    (hw : p.window (day.inMonthOf d) = .ok (some w)) :
    w.last.number + p.offset = (day.inMonthOf d).number := by
  obtain ⟨-, -, last, -⟩ := Window.has_iff h hw d
  exact last

/-- **The window of the next month starts the day after.** -/
theorem Window.number_next (h : p.dueDay = some day) (next : e.inMonth = d.inMonth.shift 1)
    (hw : p.window (day.inMonthOf d) = .ok (some w))
    (hv : p.window (day.inMonthOf e) = .ok (some v)) : v.first.number = w.last.number + 1 := by
  obtain ⟨before, month, -, first, -⟩ := Window.has_iff h hv e
  rw [next, Month.shift_shift] at month
  have last := Window.number_last h hw
  rw [← day.inMonthOf_congr (month.trans (Month.shift_zero _))] at last
  omega

theorem Window.first_le_last (h : p.dueDay = some day)
    (hw : p.window (day.inMonthOf d) = .ok (some w)) : w.first ≤ w.last := by
  obtain ⟨b, month, last, first, -⟩ := Window.has_iff h hw d
  have order := day.inMonthOf_lt (month ▸ d.inMonth.shift_neg_one_lt)
  rw [Date.lt_def] at order
  rw [Date.le_def]
  omega

theorem Window.cycle_eq (h : p.dueDay = some day)
    (hw : p.window (day.inMonthOf d) = .ok (some w)) :
    p.cycle d = .ok (some ⟨w.last, day.inMonthOf d⟩) := by
  have last := Window.number_last h hw
  have := w.last.number_pos
  obtain ⟨r, hc⟩ := (Policy.cutoff_isOk (d := d) h).2 (by omega)
  obtain ⟨close, rfl, number⟩ := Policy.number_of_cutoff h hc
  rw [Policy.cycle_eq h hc, Date.ext_number (show close.number = w.last.number by omega)]

end

/-- **The windows of months that follow each other.**  If the first of the months has a window, all
of them have.  For any day of a month the window of its due date ends on its cutoff, never before it
starts, and the next window starts the day after.  The days from the start of the first window to
the end of the last are those that lie in exactly one of the windows. -/
theorem windows_tile {p : Policy} {day : DueDay} {days : Nat → Date} {n : Nat} {due : Date}
    {r : Option Window} (h : p.dueDay = some day) (follow : Date.Consecutive days n)
    (hd : p.paymentDue (days 0) = .ok (some due)) (first : p.window due = .ok r) :
    ∃ windows : Nat → Window,
      (∀ i ≤ n, (windows i).first ≤ (windows i).last ∧
        ∀ d, d.inMonth = (days i).inMonth → ∃ due, p.paymentDue d = .ok (some due) ∧
          p.window due = .ok (some (windows i)) ∧
          p.cycle d = .ok (some ⟨(windows i).last, due⟩)) ∧
      (∀ i < n, (windows i).last.shift 1 = .ok (windows (i + 1)).first) ∧
      ∀ d, ((windows 0).first ≤ d ∧ d ≤ (windows n).last) ↔ ∃! i, i ≤ n ∧ (windows i).Has d := by
  cases Policy.eq_of_paymentDue h hd
  have windowed (i : Nat) (le : i ≤ n) : ∃ w, p.window (day.inMonthOf (days i)) = .ok (some w) :=
    Policy.exists_window h (follow.le le) first
  have : Nonempty Window := ⟨⟨days 0, days 0⟩⟩
  choose! windows windowed using windowed
  have next (i : Nat) (lt : i < n) :
      (windows (i + 1)).first.number = (windows i).last.number + 1 :=
    Window.number_next h (follow i lt) (windowed i (Nat.le_of_lt lt)) (windowed (i + 1) lt)
  have runs : Runs (fun i => (windows i).first.number) (fun i => (windows i).last.number + 1) n :=
    ⟨fun i le => Nat.lt_succ_of_le (Window.first_le_last h (windowed i le)),
      fun i lt => (next i lt).symm⟩
  refine ⟨windows, fun i le => ⟨Window.first_le_last h (windowed i le), fun d same => ?_⟩,
    fun i lt => ?_, fun d => ?_⟩
  · have here := day.inMonthOf_congr same
    have shown : p.window (day.inMonthOf d) = .ok (some (windows i)) := here ▸ windowed i le
    have last := Window.number_last h shown
    have pos := (windows i).last.number_pos
    exact ⟨day.inMonthOf d, Policy.paymentDue_eq h (by omega), shown, Window.cycle_eq h shown⟩
  · have := next i lt
    exact Date.shift_eq_ok.2 (by omega)
  · have half_open (w : Window) :
        w.Has d ↔ w.first.number ≤ d.number ∧ d.number < w.last.number + 1 :=
      and_congr_right fun _ => Nat.lt_succ_iff.symm
    calc (windows 0).first ≤ d ∧ d ≤ (windows n).last
      _ ↔ _ := half_open ⟨(windows 0).first, (windows n).last⟩
      _ ↔ _ := runs.existsUnique_iff
      _ ↔ ∃! i, i ≤ n ∧ (windows i).Has d :=
        existsUnique_congr fun i => and_congr_right fun _ => (half_open (windows i)).symm

/-- the windows of the first months of 2024 for statements that close six weeks before the due day:
the last of November lies in just one of them -/
theorem windows_tile_sixWeeks :
    let due := (Date.of? 2024 1 5).get rfl
    let start : Window := ⟨(Date.of? 2023 10 22).get rfl, (Date.of? 2023 11 21).get rfl⟩
    let day := (Date.of? 2023 11 30).get rfl
    Policy.sixWeeks.paymentDue (leapWinter 0) = .ok (some due) ∧
      Policy.sixWeeks.window due = .ok (some start) ∧ Date.Consecutive leapWinter 2 ∧
      ∃ windows : Nat → Window, windows 0 = start ∧
        (∀ i < 2, (windows i).last.shift 1 = .ok (windows (i + 1)).first) ∧
        ∃! i, i ≤ 2 ∧ (windows i).Has day := by
  intro due start day
  have hd : Policy.sixWeeks.paymentDue (leapWinter 0) = .ok (some due) := by decide +kernel
  have first : Policy.sixWeeks.window due = .ok (some start) := by decide +kernel
  have follow : Date.Consecutive leapWinter 2 := by decide
  obtain ⟨windows, shown, meet, tiled⟩ := windows_tile (n := 2) rfl follow hd first
  have window (i : Nat) (le : i ≤ 2) (w : Window)
      (h : ((Policy.sixWeeks.paymentDue (leapWinter i)).bind fun due =>
        due.elim (.ok none) Policy.sixWeeks.window) = .ok (some w)) : windows i = w := by
    obtain ⟨e, he, hw, -⟩ := (shown i le).2 _ rfl
    rw [he] at h
    exact Option.some.inj (Except.ok.inj (hw.symm.trans h))
  have begins := window 0 (by decide) start (by decide +kernel)
  have ends := window 2 (by decide) ⟨(Date.of? 2023 12 23).get rfl, (Date.of? 2024 1 20).get rfl⟩
    (by decide +kernel)
  refine ⟨hd, first, follow, windows, begins, meet, (tiled day).1 ?_⟩
  rw [begins, ends]
  decide

end Billfold
