import Billfold.Proofs.Card.Window
import Billfold.Proofs.Ledger.Periods
import Billfold.Proofs.Session.CarriedOut
import Billfold.Proofs.Session.Lock

/-!
# The bills of a plan

The periods of a plan are a month apart, each on the day of the first or on the last day of a
shorter month, and each is stamped by its own day.  Two days that are pulled back meet here, the
period's and the due day, and so the bills of a plan need not be a month apart.

* `Policy.RollsFrom`, `NewEntry.Rolls`   in which months a period goes to the next bill
* `Session.bills_of_plan`     the bill of each period, and which of them are a month apart
* `Session.bills_of_plan_shared`   a plan with two periods on one bill, and none on the bill before
-/

namespace Billfold

variable {p : Policy} {day : DueDay}

/-- whether a period goes to the next bill in a month, if its plan starts on the day `start` of a
month: the due day comes no more than the cutoff days after that day, or the month is over by
then -/
def Policy.RollsFrom (p : Policy) (day : DueDay) (start : Nat) (m : Month) : Prop :=
  day.1 ≤ start + p.offset ∨ m.lastDay ≤ start + p.offset

instance (p : Policy) (day : DueDay) (start : Nat) (m : Month) :
    Decidable (p.RollsFrom day start m) :=
  inferInstanceAs (Decidable (_ ∨ _))

/-- both days pulled back to the end of the month, the due day is no more than the cutoff days after
the period in just those months -/
theorem Policy.rollsFrom_iff {start d : Date} {months : Int}
    (moved : start.addMonths months = .ok d) :
    p.RollsFrom day start.day (start.inMonth.shift months) ↔
      (day.inMonthOf d).day ≤ d.day + p.offset := by
  obtain ⟨month, d_day⟩ := Date.inMonth_of_addMonths moved
  unfold RollsFrom
  rw [day.day_inMonthOf, d_day, month]
  omega

/-- whether the period with the index `i` goes to the next bill in its month -/
def NewEntry.Rolls (e : NewEntry) (p : Policy) (day : DueDay) (i : Nat) : Prop :=
  p.RollsFrom day e.date.day (e.date.inMonth.shift i)

instance (e : NewEntry) (p : Policy) (day : DueDay) (i : Nat) : Decidable (e.Rolls p day i) :=
  inferInstanceAs (Decidable (p.RollsFrom ..))

namespace Session

variable {s : Session} {step : Step} {e : NewEntry} {account : Account} {n : Nat}

theorem month_of_period {mode : Mode} {i : Nat} {r : Row}
    (found : s.book.account? e.account = some account) (told : account.policy = .ok (some p))
    (due : p.dueDay = some day) (period : Ledger.Period s e mode n i r) (stamped : s.StampsNew r) :
    ∃ bill, r.month = some bill ∧ bill.day = 1 ∧
      bill.inMonth = (e.date.inMonth.shift i).shift
        (if e.deferred = true ∨ e.Rolls p day i then 1 else 0) := by
  obtain ⟨_, _, stamp, found', told', decided, lock, -⟩ := stamped.lock
  rw [period.account, found] at found'
  cases found'
  rw [told] at told'
  cases told'
  rcases stampFor_cases decided with ⟨none, -⟩ | ⟨_, _, paid, e_p, due', resolved, rfl⟩
  · rw [Option.bind_some, due] at none
    cases none
  cases e_p
  have month := inMonth_of_resolveDue due resolved
  have here := (Date.inMonth_of_addMonths period.date).1
  refine ⟨paid.firstOfMonth, congrArg Prod.fst lock, rfl, ?_⟩
  show paid.inMonth = _
  simp only [NewEntry.Rolls, Policy.rollsFrom_iff period.date]
  rw [month, ← here, ← period.deferred]

/-- **The bills of a plan.**  The period with the index `i` of a plan for a card with a due day is
stamped with the `i`-th month after that of the start, or, if the plan is deferred or the period
goes to the next bill there, with the month after that.  So the bills of two periods that follow
each other are a month apart exactly if the plan is deferred, or if the periods go to the next bill
in both of their months or in neither: apart from days pulled back to the end of a month no bill has
two periods of the plan, and none in between is left out. -/
theorem bills_of_plan (h : s.Reachable) (creates : s.Creates step e)
    (found : s.book.account? e.account = some account) (told : account.policy = .ok (some p))
    (due : p.dueDay = some day)
    (count : readCount s.settings.maxInstallments e.count = .ok n) (several : 2 ≤ n) :
    ∃ rows, (s.take step).2.book = s.book.addRows rows ∧ rows.length = n ∧
      (∀ (i : Nat) r, rows[i]? = some r → ∃ bill, r.month = some bill ∧ bill.day = 1 ∧
        bill.inMonth = (e.date.inMonth.shift i).shift
          (if e.deferred = true ∨ e.Rolls p day i then 1 else 0)) ∧
      ∀ (i : Nat) r next bill bill', rows[i]? = some r → rows[i + 1]? = some next →
        r.month = some bill → next.month = some bill' →
          (bill'.inMonth = bill.inMonth.shift 1 ↔
            e.deferred = true ∨ (e.Rolls p day i ↔ e.Rolls p day (i + 1))) := by
  obtain ⟨plan, rows, drafted, put, -⟩ := creates.drafted h
  obtain ⟨plan, rfl⟩ := drafted.isPlan count several
  obtain ⟨_, count', -, length, periods⟩ := drafted.periods
  rw [count] at count'
  cases count'
  have bills {i : Nat} {r : Row} (hr : rows[i]? = some r) :=
    month_of_period found told due (periods i r hr)
      (stampsNew_of_created drafted.created (List.mem_of_getElem? hr))
  refine ⟨rows, put, length, fun i r hr => bills hr, ?_⟩
  intro i r next bill bill' hr hr' stamped stamped'
  obtain ⟨_, month, -, here⟩ := bills hr
  obtain ⟨_, month', -, there⟩ := bills hr'
  rw [stamped] at month
  cases month
  rw [stamped'] at month'
  cases month'
  have shifted : bill'.inMonth = bill.inMonth.shift 1 ↔
      bill'.inMonth.index = bill.inMonth.index + 1 :=
    ⟨congrArg Month.index, Month.ext_index⟩
  rw [shifted, here, there]
  simp only [Month.index_shift]
  -- the months of the two bills are apart by one and by what the periods roll over
  have apart (x y : Prop) [Decidable x] [Decidable y] (m : Int) :
      m + (i + 1 : Nat) + (if y then 1 else 0) = m + i + (if x then 1 else 0) + 1 ↔ (x ↔ y) := by
    by_cases hx : x <;> by_cases hy : y <;> simp [hx, hy] <;> omega
  rw [apart]
  by_cases deferred : e.deferred = true <;> simp [deferred]

/-! ## two plans -/

/-- a chair for 99.99 in two parts, with the card that is due on the 15th -/
def buyChair : Step := .create (.purchase "Chair" 2)

/-- the two parts of the chair are a month apart on the bills, as they are in the book -/
theorem bills_of_plan_chair :
    let s := firstPurchase
    let e := NewEntry.purchase "Chair" 2
    let account : Account := ⟨"id-1", "Card", Policy.cardKind, "USD", some 15, some 5⟩
    s.Reachable ∧ s.Creates buyChair e ∧
      s.book.account? e.account = some account ∧
      account.policy = .ok (some Policy.midMonth) ∧
      readCount s.settings.maxInstallments e.count = .ok 2 ∧
      ∃ rows, (s.take buyChair).2.book = s.book.addRows rows ∧ rows.length = 2 ∧
        ∀ r next bill bill', rows[0]? = some r → rows[1]? = some next →
          r.month = some bill → next.month = some bill' → bill'.inMonth = bill.inMonth.shift 1 := by
  intro s e account
  have does : Does buyChair (.create e) := .itself fun _ h => nomatch h
  have creates : s.Creates buyChair e := ⟨does, .inl (by decide +kernel)⟩
  have found : s.book.account? e.account = some account := by decide +kernel
  have told : account.policy = .ok (some Policy.midMonth) := by decide +kernel
  have count : readCount s.settings.maxInstallments e.count = .ok 2 := by decide +kernel
  obtain ⟨rows, put, length, -, apart⟩ :=
    bills_of_plan reachable_firstPurchase creates found told rfl count (Nat.le_refl 2)
  refine ⟨reachable_firstPurchase, creates, found, told, count, rows, put, length, ?_⟩
  intro r next bill bill' first second stamped stamped'
  refine (apart 0 r next bill bill' first second stamped stamped').2 (.inr ?_)
  -- the chair is bought on the 4th, and nine days into the month no bill is closed
  exact iff_of_false (by decide) (by decide)

/-- a card due on the last day of each month, whose statement closes on that day -/
def endOfMonthCard : NewAccount := ⟨some "Card", some Policy.cardKind, none, some 31, some 0⟩

/-- a session with that card -/
def withEndOfMonthCard : Session :=
  ((Session.fresh {} .info true (.midnight ((Date.of? 2024 1 30).get rfl))).take
    (.openAccount endOfMonthCard)).2

/-- a chair in three parts, bought with it on 30 January -/
def buyAtEndOfMonth : Step :=
  .create { NewEntry.purchase "Chair" 3 with date := (Date.of? 2024 1 30).get rfl }

/-- **Two periods of one plan may be on one bill, and none on the bill before**: February is over on
the day of its period, and March is not. -/
theorem bills_of_plan_shared :
    let s := withEndOfMonthCard
    let account : Account := ⟨"id-1", "Card", Policy.cardKind, "USD", some 31, some 0⟩
    s.Reachable ∧ s.book.account? "id-1" = some account ∧
      account.policy = .ok (some ⟨some ⟨31, by decide⟩, some 0⟩) ∧
      (s.take buyAtEndOfMonth).2.book.rows.map (fun r => (some r.date, r.month)) =
        [(Date.of? 2024 1 30, Date.of? 2024 1 1), (Date.of? 2024 2 29, Date.of? 2024 3 1),
          (Date.of? 2024 3 30, Date.of? 2024 3 1)] := by
  intro s account
  exact ⟨(Reachable.fresh _ _ _ _).take _, by decide +kernel, by decide +kernel, by decide +kernel⟩

end Session

end Billfold
