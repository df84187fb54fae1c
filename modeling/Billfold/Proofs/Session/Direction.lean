import Mathlib.Control.Monad.Basic
import Billfold.Proofs.Ledger.Direction
import Billfold.Proofs.Session.CarriedOut

/-!
# The direction of a row through a run

The book keeps no direction.  A row is put on a side of zero when it is created and when it is
changed with a direction, and every other step leaves it there; only an amount of zero does not tell
of which side it is.

* `Session.Directs`          a step that gives a row its direction
* `Session.LeavesDirection`  a step that does not give it another, and can tell the one it has
* `direction_follows_nature` the amount of the row after any run of such steps
* `inflow_below_zero`        money in for less than nothing is money out
* `inflow_from_zero`         and so is money in that was nothing, once it has an amount
-/

namespace Billfold

namespace Session

open Act

variable {s t : Session} {step : Step} {id : String} {c : Changes} {direction : Nature}
variable {row : Row} {e : NewEntry}

/-- a step gives a row a direction: it creates the row with one, or changes it with one -/
inductive Directs (s : Session) (step : Step) (id : String) (direction : Nature) : Prop
  | created {e : NewEntry} (does : Does step (.create e)) (absent : s.book.row? id = none)
      (there : ((s.take step).2.book.row? id).isSome) (leans : e.Leans direction)
  | updated {c : Changes} (updates : s.Updates step id c)
      (named : Nature.of? c.nature = some direction)

/-- a step neither sets a row by hand nor drops it, nor changes it with a direction; and it does not
give another amount to money in that is zero, which is not told from money out -/
structure LeavesDirection (s : Session) (step : Step) (id : String) (direction : Nature) :
    Prop where
  untouched : ¬ step.Touches id
  unnamed : ∀ c, s.Updates step id c → Nature.of? c.nature = none
  told : direction = .inflow → ∀ c, s.Updates step id c → c.amount.isNull = false →
    ∀ row, s.book.row? id = some row → row.amount.sign ≠ 0

/-- a row is there with an amount of a direction, or is gone for good -/
def Directed (s : Session) (id : String) (direction : Nature) : Prop :=
  (∃ row, s.book.row? id = some row ∧ direction.Admits row.amount) ∨ s.Spent id

theorem Directs.directed (h : s.Reachable) (directs : s.Directs step id direction) :
    (s.take step).2.Directed id direction := by
  cases directs with
  | created does absent there leans =>
    obtain ⟨row, found⟩ := Option.isSome_iff_exists.1 there
    rcases drafted_of_take h does with same | ⟨plan, rows, drafted, put, -⟩
    · rw [same, absent] at found
      cases found
    · refine .inl ⟨row, found, drafted.admits leans ?_⟩
      rw [put, Book.row?_addRows, absent] at found
      exact List.mem_of_find?_eq_some found
  | updated updates named =>
    obtain ⟨row, settled, found, updated, put⟩ := updates.updated h
    obtain ⟨made, settles, same⟩ := updated.settles
    have here : settled.id = id := (settles.id.trans same).trans (Book.id_of_row? found)
    refine .inl ⟨settled, ?_, updated.admits fun _ => Row.admits_of_named named⟩
    rw [put, ← here]
    exact Book.row?_putRow_self (here ▸ found)

/-- **A step that does not give a row another direction leaves it on its side.** -/
theorem Directed.take (h : s.Reachable) (directed : s.Directed id direction)
    (leaves : s.LeavesDirection step id direction) : (s.take step).2.Directed id direction := by
  rcases directed with ⟨row, found, admits⟩ | spent
  · by_cases changed : (s.take step).2.book = s.book
    · exact .inl ⟨row, changed ▸ found, admits⟩
    rcases take_remade h step found with same | ⟨done, does, remade⟩
    · exact .inl ⟨row, same, admits⟩
    generalize after : (s.take step).2.book.row? id = now at remade
    -- of what a step can make of a row, only a change gives it another amount
    cases remade with
    | kept => exact .inl ⟨row, after, admits⟩
    | edited made inPlace => exact absurd (does.touches rfl) leaves.untouched
    | deleted => exact absurd (does.touches rfl) leaves.untouched
    | updated updated =>
      have updates : s.Updates step id _ := ⟨does, .inr changed⟩
      refine .inl ⟨_, after, updated.admits fun _ given => ?_⟩
      refine Row.admits_of_unnamed (leaves.unnamed _ updates) given admits fun inflow some => ?_
      exact leaves.told inflow _ updates some row found
    | revised asked revised =>
      have same := congrArg Row.amount (revised.eq (h.numbered.wall row (Book.mem_of_row? found)))
      exact .inl ⟨_, after, same ▸ admits⟩
    | merged merges => exact .inr (.of_gone h found after)
  · exact .inr (spent.take h step)

/-- **The amount of a row is on the side of its direction.**  A step that creates the row gives it
the direction that it names, or the other one if it names it for an amount below zero; a change that
is carried out with a direction gives it that one.  From there on, and as long as the row is not set
by hand or changed with a direction, its amount is never above zero for money in and never below for
money out, whatever amounts it is given; only, for money in, no amount may be given to it while it
is zero. -/
theorem direction_follows_nature (h : s.Reachable) (directs : s.Directs step id direction)
    (way : (s.take step).2.Leads (fun u next => u.LeavesDirection next id direction) t) :
    ∀ row, t.book.row? id = some row → direction.Admits row.amount := by
  have directed : t.Directed id direction := by
    induction way with
    | refl => exact directs.directed h
    | take way next may ih => exact ih.take ((h.take step).leads way) may
  intro row found
  rcases directed with ⟨_, found', admits⟩ | spent
  · rw [found] at found'
    cases found'
    exact admits
  · rw [spent.gone] at found
    cases found

/-! ## money in -/

def receive (name amount : String) : NewEntry :=
  { NewEntry.purchase name 1 with nature := .text "inflow", amount := .value (.text amount) }

/-- the salary is another one than was thought; the amount is given with a sign -/
def correctSalary : Step := .update "id-3" ⟨none, .value (.text "-7.50"), none, .null, true⟩

/-- a salary stays money in when its amount is corrected -/
theorem direction_follows_nature_salary :
    let s := firstPurchase
    let step := Step.create (receive "Salary" "99.99")
    let t := ((s.take step).2.take correctSalary).2
    s.Reachable ∧ s.Directs step "id-3" .inflow ∧
      (s.take step).2.Leads (fun u next => u.LeavesDirection next "id-3" .inflow) t ∧
      ((t.book.row? "id-3").map fun row => row.amount.text) = some "-7.50" ∧
      ∀ row, t.book.row? "id-3" = some row → Nature.inflow.Admits row.amount := by
  intro s step t
  have absent : s.book.row? "id-3" = none := Option.isNone_iff_eq_none.1 (by decide +kernel)
  have directs : s.Directs step "id-3" .inflow :=
    .created (.itself fun _ h => nomatch h) absent (by decide +kernel)
      ⟨.inflow, .finite false 9999 (-2), rfl, by decide +kernel, by decide⟩
  have below : ((s.take step).2.book.row? "id-3").map (fun row => row.amount.sign) = some (-1) := by
    decide +kernel
  have leaves : (s.take step).2.LeavesDirection correctSalary "id-3" .inflow := by
    have only {c : Changes} (updates : (s.take step).2.Updates correctSalary "id-3" c) :
        c.nature = .null := by
      cases updates.asked
      rfl
    refine ⟨not_false, fun c updates => ?_, fun _ c _ _ row found => ?_⟩
    · rw [only updates]
      rfl
    · rw [found] at below
      have sign : row.amount.sign = -1 := Option.some.inj below
      omega
  have way : (s.take step).2.Leads (fun u next => u.LeavesDirection next "id-3" .inflow) t :=
    .take .refl correctSalary leaves
  exact ⟨reachable_firstPurchase, directs, way, by decide +kernel,
    direction_follows_nature reachable_firstPurchase directs way⟩

/-- **Money in for less than nothing is money out**: what is created with a direction for an amount
below zero is on the other side. -/
theorem inflow_below_zero :
    let s := firstPurchase
    let step := Step.create (receive "Refund" "-5.00")
    s.Reachable ∧ (s.take step).1.fails = false ∧
      Nature.of? (receive "Refund" "-5.00").nature = some .inflow ∧
      ∃ row, (s.take step).2.book.row? "id-3" = some row ∧ ¬ Nature.inflow.Admits row.amount := by
  intro s step
  have above : ((s.take step).2.book.row? "id-3").map (fun row => row.amount.sign) = some 1 := by
    decide +kernel
  obtain ⟨row, found, sign⟩ := Option.map_eq_some_iff.1 above
  refine ⟨reachable_firstPurchase, by decide +kernel, rfl, row, found, fun admits => ?_⟩
  have : row.amount.sign ≤ 0 := admits
  omega

/-- the amount of the salary is told, without a direction -/
def fillSalary : Step := .update "id-3" ⟨none, .value (.text "10.00"), none, .null, true⟩

/-- **Money in that is zero is not told from money out**: a change that gives it an amount puts it
on the other side. -/
theorem inflow_from_zero :
    let step := Step.create (receive "Salary" "0")
    let s := (firstPurchase.take step).2
    firstPurchase.Reachable ∧ firstPurchase.Directs step "id-3" .inflow ∧
      ¬ fillSalary.Touches "id-3" ∧
      (∀ c, s.Updates fillSalary "id-3" c → Nature.of? c.nature = none) ∧
      (s.take fillSalary).1.fails = false ∧
      ¬ s.LeavesDirection fillSalary "id-3" .inflow ∧
      ∃ row, (s.take fillSalary).2.book.row? "id-3" = some row ∧
        ¬ Nature.inflow.Admits row.amount := by
  intro step s
  have absent : firstPurchase.book.row? "id-3" = none :=
    Option.isNone_iff_eq_none.1 (by decide +kernel)
  have directs : firstPurchase.Directs step "id-3" .inflow :=
    .created (.itself fun _ h => nomatch h) absent (by decide +kernel)
      ⟨.inflow, .finite false 0 0, rfl, by decide +kernel, by decide⟩
  have above : ((s.take fillSalary).2.book.row? "id-3").map (fun row => row.amount.sign) =
      some 1 := by decide +kernel
  obtain ⟨row, found, sign⟩ := Option.map_eq_some_iff.1 above
  have out : ¬ Nature.inflow.Admits row.amount := fun admits => by
    have : row.amount.sign ≤ 0 := admits
    omega
  have reachable : firstPurchase.Reachable := reachable_firstPurchase
  refine ⟨reachable, directs, not_false, fun c updates => ?_, by decide +kernel, fun leaves => ?_,
    row, found, out⟩
  · cases updates.asked
    rfl
  · rcases (directs.directed reachable).take (reachable.take step) leaves with
      ⟨_, found', admits⟩ | spent
    · rw [found] at found'
      cases found'
      exact out admits
    · rw [spent.gone] at found
      cases found

end Session

end Billfold
