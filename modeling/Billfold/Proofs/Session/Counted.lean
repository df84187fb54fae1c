import Billfold.Proofs.Ledger.Planning
import Billfold.Proofs.Session.Commute
import Billfold.Proofs.Session.Group
import Billfold.Proofs.Session.Resolve

/-!
# Counters and the book

What the counters of a session say happened is what happened to the book, and what the steps
answered: every one of them grows by the number of times that the thing it counts has happened.

* `Session.created`        the rows that a step adds to the book
* `plansMade`, `linesMade`, `batchesFailed`, `resolved`, `restamps`   what happens in a step
* `Session.tally`          how often it happens in a run
* `Step.Counts`            what the operation of a step can count
* `plans_take`, `failed_take`, `resolutions_take`, `stamps_take`   one step
* `counters_account`       a run
-/

namespace Billfold

open Act Ledger

/-- whether rows are the periods of a plan in a mode: several, each tagged so -/
def Mode.isOf (mode : Mode) (rows : List Row) : Bool :=
  decide (2 ≤ rows.length) && rows.all fun r => r.tag?.map Tag.mode == some mode

namespace Ledger

variable {s : Session} {e : NewEntry} {plan : Option Plan} {rows : List Row} {r : Row}

theorem Drafted.tag?_eq {p : Plan} (h : Drafted s e (some p) rows) (hr : r ∈ rows) :
    ∃ tag, r.tag? = some tag ∧ tag.mode = p.mode := by
  obtain ⟨account, policy, amount, n, -, -, -, -, planned, written⟩ := h.written
  obtain ⟨c, hc, k, stamp, -, -, kept⟩ := written.exists_of_mem hr
  obtain ⟨line, -, rfl⟩ := List.mem_map.1 hc
  have carried : r.Carries (p.tag line) := Row.carries_of_kept rfl kept
  have named : (p.tag line).group ≠ some "" := by
    show some p.group ≠ some ""
    rw [planned.group_eq]
    exact some_grouped_ne_empty _
  exact ⟨p.tag line, carried.tag?_eq named, rfl⟩

theorem Drafted.tag?_none (h : Drafted s e none rows) (hr : r ∈ rows) : r.tag? = none := by
  obtain ⟨account, policy, amount, n, -, -, -, -, -, written⟩ := h.written
  obtain ⟨c, hc, k, stamp, -, -, kept⟩ := written.exists_of_mem hr
  cases List.mem_singleton.1 hc
  unfold Row.tag?
  rw [Row.extra_of_kept kept]
  rfl

theorem Drafted.length_eq (h : Drafted s e plan rows) :
    (plan = none ∧ rows.length = 1) ∨
      ∃ p, plan = some p ∧ 2 ≤ rows.length ∧ rows.length = p.lines.length := by
  obtain ⟨account, policy, amount, n, -, -, -, count, planned, written⟩ := h.written
  have length := planned.length_candidates count (e.base account amount)
  have written := written.length_eq
  cases planned with
  | single one => exact .inl ⟨rfl, written⟩
  | @several p more made =>
    refine .inr ⟨p, rfl, ?_, ?_⟩
    · rw [written, length]
      exact more
    · rw [written]
      exact List.length_map _

theorem Drafted.plansIn_eq (h : Drafted s e plan rows) (mode : Mode) :
    plansIn plan mode = (mode.isOf rows).toNat := by
  unfold Mode.isOf
  rcases h.length_eq with ⟨rfl, one⟩ | ⟨p, rfl, several, -⟩
  · rw [one]
    rfl
  have each : ∀ r ∈ rows, (r.tag?.map Tag.mode == some mode) = decide (p.mode = mode) := by
    intro r hr
    obtain ⟨tag, tag_eq, mode_eq⟩ := h.tag?_eq hr
    rw [tag_eq, ← mode_eq]
    rfl
  rw [decide_eq_true several, Bool.true_and]
  by_cases same : p.mode = mode
  · have all : rows.all (fun r => r.tag?.map Tag.mode == some mode) = true := by
      refine List.all_eq_true.2 fun r hr => ?_
      rw [each r hr]
      exact decide_eq_true same
    rw [all]
    exact if_pos same
  · obtain ⟨r, hr⟩ := List.exists_mem_of_length_pos (Nat.lt_of_lt_of_le Nat.two_pos several)
    have not_all : rows.all (fun r => r.tag?.map Tag.mode == some mode) = false := by
      refine List.all_eq_false.2 ⟨r, hr, ?_⟩
      rw [each r hr]
      simpa using same
    rw [not_all]
    exact if_neg same

theorem Drafted.linesIn_eq (h : Drafted s e plan rows) :
    linesIn plan = rows.countP fun r => r.tag?.isSome := by
  rcases h.length_eq with ⟨rfl, -⟩ | ⟨p, rfl, -, length⟩
  · refine (List.countP_eq_zero.2 fun r hr => ?_).symm
    rw [h.tag?_none hr]
    nofun
  · refine length.symm.trans (List.countP_eq_length.2 fun r hr => ?_).symm
    obtain ⟨tag, tag_eq, -⟩ := h.tag?_eq hr
    rw [tag_eq]
    rfl

end Ledger

/-! ## what happens in a step -/

namespace Session

def created (s : Session) (step : Step) : List Row :=
  match step with
  | .create _ => (s.take step).2.book.rows.drop s.book.rows.length
  | _ => []

/-- whether a step adds the rows of a plan in a mode, as a number -/
def plansMade (mode : Mode) (s : Session) (step : Step) : Nat := (mode.isOf (s.created step)).toNat

/-- how many tagged rows a step adds -/
def linesMade (s : Session) (step : Step) : Nat :=
  (s.created step).countP fun r => r.tag?.isSome

/-- whether a step is to create entries and says that their batch failed, as a number -/
def batchesFailed (s : Session) (step : Step) : Nat :=
  match step with
  | .create _ => failedBatch (s.take step).1.result
  | _ => 0

/-- whether a step resolves a suggestion in a way and does not fail, as a number -/
def resolved (how : Resolution) (s : Session) (step : Step) : Nat :=
  if step.resolution?.map Prod.fst = some how ∧ (s.take step).1.fails = false then 1 else 0

/-- whether a step turns the flag of a row in the book and stamps it anew, as a number -/
def restamps (s : Session) (step : Step) : Nat :=
  match step with
  | .update id _ =>
    match s.book.row? id, (s.take step).2.book.row? id with
    | some old, some now => (s.restamped old now).toNat
    | _, _ => 0
  | _ => 0

def tally (event : Session → Step → Nat) (s : Session) : List Step → Nat
  | [] => 0
  | step :: rest => event s step + tally event (s.take step).2 rest

end Session

/-! ## what a step leaves as it was -/

def Step.Counts (c : Counter) : Step → Prop
  | .create _ => c = .stamps .skipped ∨ c = .stamps .create ∨ c = .failedBatches ∨
      (∃ mode, c = .plans mode) ∨ c = .planLines
  | .update _ _ => c = .stamps .skipped ∨ c = .stamps .relock
  | .dismiss _ _ => c = .resolutions .dismiss
  | .clear _ _ => c = .resolutions .clear
  | .merge _ _ => c = .resolutions .merge
  | .serve _ => True
  | _ => False

namespace Session

variable {s t : Session} {step : Step} {c : Counter}

theorem within_act (other : ¬ step.Counts c) : Within (Leaves c) step.act := by
  cases step with
  | openAccount a => exact within_map _ (within_openAccount a)
  | editAccount id changes => exact within_map _ (within_editAccount id changes)
  | editRow id changes => exact within_map _ (within_editRow id changes)
  | deleteRow id => exact within_map _ (within_deleteRow id)
  | create e =>
    exact within_map _ (within_create (allows_leaves fun same => other (.inl same))
      (allows_leaves fun same => other (.inr (.inl same)))
      (allows_leaves fun same => other (.inr (.inr (.inl same))))
      (fun mode => allows_leaves fun same => other (.inr (.inr (.inr (.inl ⟨mode, same⟩)))))
      (allows_leaves fun same => other (.inr (.inr (.inr (.inr same))))) e)
  | update id changes =>
    exact within_map _ (within_update (allows_leaves fun same => other (.inl same))
      (allows_leaves fun same => other (.inr same)) id changes)
  | paymentInfo id => exact within_map _ (within_paymentInfo id)
  | group account name => exact within_map _ (within_group account name)
  | billingCycle account reference =>
    exact within_bind (within_billingCycle account reference) fun _ => within_pure _
  | attach id suggestion => exact within_map _ (within_revise id _)
  | dismiss id request => exact within_map _ (within_told (allows_leaves other) id _ request)
  | clear id request => exact within_map _ (within_told (allows_leaves other) id _ request)
  | merge id request => exact within_map _ (within_merge (allows_leaves other) id request)
  | setClock now => exact within_map _ (within_modify fun _ => rfl)
  | refuseRow n => exact within_map _ (within_modify fun s => Backdrop.refusing s _)
  | listRows => exact within_map _ (within_bind within_book fun _ => within_pure _)
  | metrics => exact within_bind within_get fun _ => within_pure _
  | serve r => exact absurd trivial other

theorem left_take (s : Session) (other : ¬ step.Counts c) :
    (s.take step).2.counters.count c = s.counters.count c :=
  (within_act other).of_exec (s := { s with log := [] }) (take_exec s step)

/-! ## one step -/

theorem created_of_put {e : NewEntry} {rows : List Row}
    (put : (s.take (.create e)).2.book = s.book.addRows rows) :
    s.created (.create e) = rows := by
  unfold created
  dsimp only
  rw [put]
  exact List.drop_left

/-- **Plans and their lines are counted as their rows are added to the book.** -/
theorem plans_take (h : s.Reachable) (own : ∀ r, step ≠ .serve r) :
    (∀ mode, (s.take step).2.counters.count (.plans mode) =
      s.counters.count (.plans mode) + s.plansMade mode step) ∧
    (s.take step).2.counters.count .planLines =
      s.counters.count .planLines + s.linesMade step := by
  cases step with
  | serve r => exact absurd rfl (own r)
  | create e =>
    obtain ⟨x, ran, -⟩ := exec_map_cases (take_exec s (.create e))
    unfold plansMade linesMade
    rcases counts_plan (s := { s with log := [] }) h.numbered ran with
      ⟨kept, plans, lines⟩ | ⟨plan, rows, drafted, put, plans, lines⟩
    · have none : s.created (.create e) = [] :=
        created_of_put (kept.trans (Book.addRows_nil s.book).symm)
      rw [none]
      exact ⟨plans, lines⟩
    · rw [created_of_put put, ← drafted.linesIn_eq]
      refine ⟨fun mode => ?_, lines⟩
      rw [← drafted.plansIn_eq]
      exact plans mode
  | _ =>
    refine ⟨fun mode => left_take s ?_, left_take s ?_⟩
    · simp [Step.Counts]
    · simp [Step.Counts]

/-- **Failed batches are counted as creating says that they failed.** -/
theorem failed_take (own : ∀ r, step ≠ .serve r) :
    (s.take step).2.counters.count .failedBatches =
      s.counters.count .failedBatches + s.batchesFailed step := by
  cases step with
  | serve r => exact absurd rfl (own r)
  | create e =>
    obtain ⟨x, ran, result⟩ := exec_map_cases (take_exec s (.create e))
    unfold batchesFailed
    dsimp only
    rw [result, counts_failed (s := { s with log := [] }) ran]
    cases x <;> rfl
  | _ =>
    refine left_take s ?_
    simp [Step.Counts]

/-- a step that is counted as a resolution if it comes to a value does not fail exactly then -/
theorem recorded_take {α : Type} {act : Act α} {f : α → Reply} {request : Option String}
    {id : String} {how : Resolution} {posted : α → Option String}
    (asked : step.resolution?.map Prod.fst = some how)
    (answers : ∀ a log, (⟨.ok (f a), log⟩ : Outcome).fails = false)
    (leaves : Within (Leaves (.resolutions how)) act)
    (does : step.act = f <$> recorded act request id how posted) :
    (s.take step).2.counters.count (.resolutions how) =
      s.counters.count (.resolutions how) + s.resolved how step := by
  have taken := take_exec s step
  rw [does] at taken
  obtain ⟨x, ran, result⟩ := exec_map_cases taken
  rw [counts_recorded (s := { s with log := [] }) leaves ran]
  unfold resolved
  generalize (s.take step).1 = outcome at result ⊢
  obtain ⟨_, log⟩ := outcome
  cases result
  cases x with
  | error e => exact congrArg _ (if_neg fun both => nomatch both.2).symm
  | ok a => exact congrArg _ (if_pos ⟨asked, answers a log⟩).symm

/-- **Resolutions are counted as they are carried out.** -/
theorem resolutions_take (own : ∀ r, step ≠ .serve r) (how : Resolution) :
    (s.take step).2.counters.count (.resolutions how) =
      s.counters.count (.resolutions how) + s.resolved how step := by
  by_cases asked : step.resolution?.map Prod.fst = some how
  · cases step with
    | serve r => exact absurd rfl (own r)
    | dismiss id request =>
      cases asked
      exact recorded_take rfl (fun _ _ => rfl) (within_revise id Entry.dismiss) rfl
    | clear id request =>
      cases asked
      exact recorded_take rfl (fun _ _ => rfl) (within_revise id fun e => .ok e.clear) rfl
    | merge id request =>
      cases asked
      exact recorded_take rfl (fun _ _ => rfl) (within_mergeRow id) rfl
    | _ => cases asked
  · unfold resolved
    rw [if_neg fun both => asked both.1]
    refine left_take s fun counts => ?_
    cases step with
    | serve r => exact absurd rfl (own r)
    | dismiss => cases counts; exact asked rfl
    | clear => cases counts; exact asked rfl
    | merge => cases counts; exact asked rfl
    | create => rcases counts with same | same | same | ⟨_, same⟩ | same <;> cases same
    | update => rcases counts with same | same <;> cases same
    | _ => exact counts

/-- **Stamps are counted as they are put into the book** with rows whose flag is turned. -/
theorem stamps_take (h : s.Reachable) (own : ∀ r, step ≠ .serve r) :
    (s.take step).2.counters.count (.stamps .relock) =
      s.counters.count (.stamps .relock) + s.restamps step := by
  cases step with
  | serve r => exact absurd rfl (own r)
  | update id c =>
    obtain ⟨x, ran, -⟩ := exec_map_cases (take_exec s (.update id c))
    unfold restamps
    dsimp only
    cases counts_update (s := { s with log := [] })
        (fun _ found => (h.booked found).number) ran with
    | kept book left =>
      have still : (match s.book.row? id, s.book.row? id with
          | some old, some now => (s.restamped old now).toNat
          | _, _ => 0) = 0 := by
        cases s.book.row? id with
        | none => rfl
        | some old => exact congrArg Bool.toNat (not_restamped rfl)
      rw [book]
      dsimp only
      rw [still]
      exact left
    | @made row settled found updated put counted =>
      obtain ⟨_, settles, same⟩ := updated.settles
      have here : settled.id = id := (settles.id.trans same).trans (Book.id_of_row? found)
      rw [put, ← here, Book.row?_putRow_self (here ▸ found), here]
      rw [show s.book.row? id = some row from found]
      exact counted
  | _ =>
    refine left_take s ?_
    simp [Step.Counts]

/-! ## a run -/

theorem count_run {event : Session → Step → Nat}
    (each : ∀ {u : Session} {step : Step}, u.Reachable → (∀ r, step ≠ .serve r) →
      (u.take step).2.counters.count c = u.counters.count c + event u step)
    (h : s.Reachable) {steps : List Step} (own : ∀ step ∈ steps, ∀ r, step ≠ .serve r) :
    (s.run steps).2.counters.count c = s.counters.count c + s.tally event steps := by
  induction steps generalizing s with
  | nil => rfl
  | cons step steps ih =>
    have first := each h (own step List.mem_cons_self)
    have rest := ih (h.take step) fun next hn => own next (List.mem_cons_of_mem _ hn)
    show ((s.take step).2.run steps).2.counters.count c = _ + (_ + _)
    omega

/-- **The counters account for the book.**  In a run of operations of the ledger the plans that are
counted in a mode are those whose rows were added to the book, and the lines are their tagged rows;
failed batches are counted as often as creating says so, resolutions as often as one is carried out,
and stamps of rows whose flag is turned as often as one is put into the book.  To create entries
without adding a row to the book counts no plan and no line. -/
theorem counters_account (h : s.Reachable) {steps : List Step}
    (own : ∀ step ∈ steps, ∀ r, step ≠ .serve r) :
    let count (c : Counter) := (s.run steps).2.counters.count c
    (∀ mode, count (.plans mode) =
      s.counters.count (.plans mode) + s.tally (plansMade mode) steps) ∧
    count .planLines = s.counters.count .planLines + s.tally linesMade steps ∧
    count .failedBatches = s.counters.count .failedBatches + s.tally batchesFailed steps ∧
    (∀ how, count (.resolutions how) =
      s.counters.count (.resolutions how) + s.tally (resolved how) steps) ∧
    count (.stamps .relock) = s.counters.count (.stamps .relock) + s.tally restamps steps ∧
    ∀ e, (s.take (.create e)).2.book = s.book →
      (∀ mode, (s.take (.create e)).2.counters.count (.plans mode) =
        s.counters.count (.plans mode)) ∧
      (s.take (.create e)).2.counters.count .planLines = s.counters.count .planLines := by
  refine ⟨fun mode => ?_, ?_, ?_, fun how => ?_, ?_, fun e kept => ?_⟩
  · exact count_run (fun reachable own => (plans_take reachable own).1 mode) h own
  · exact count_run (fun reachable own => (plans_take reachable own).2) h own
  · exact count_run (fun _ own => failed_take own) h own
  · exact count_run (fun _ own => resolutions_take own how) h own
  · exact count_run (fun reachable own => stamps_take reachable own) h own
  · obtain ⟨plans, lines⟩ := plans_take h (show ∀ r, Step.create e ≠ .serve r from nofun)
    have none : s.created (.create e) = [] :=
      created_of_put (kept.trans (Book.addRows_nil s.book).symm)
    unfold plansMade at plans
    unfold linesMade at lines
    rw [none] at plans lines
    exact ⟨plans, lines⟩

/-- a chair is bought in three periods; for a second one the second row is refused; then the first
purchase is put off, and a suggestion for it is attached and dismissed -/
def chairs : List Step :=
  [.create (.purchase "Chair" 3), .refuseRow 2, .create (.purchase "Chair" 3),
    .update "id-2" ⟨none, .value .null, some true, .null, true⟩,
    .attach "id-2" (suggesting "id-3"), .dismiss "id-2" none]

/-- three lines of one plan, one failed batch, one new stamp and one resolution are counted -/
theorem counters_account_chairs :
    firstPurchase.Reachable ∧ (∀ step ∈ chairs, ∀ r, step ≠ .serve r) ∧
      (firstPurchase.run chairs).2.counters.count (.plans .divide) =
        firstPurchase.counters.count (.plans .divide) + 1 ∧
      (firstPurchase.run chairs).2.counters.count .planLines =
        firstPurchase.counters.count .planLines + 3 ∧
      (firstPurchase.run chairs).2.counters.count .failedBatches =
        firstPurchase.counters.count .failedBatches + 1 ∧
      (firstPurchase.run chairs).2.counters.count (.resolutions .dismiss) =
        firstPurchase.counters.count (.resolutions .dismiss) + 1 ∧
      (firstPurchase.run chairs).2.counters.count (.stamps .relock) =
        firstPurchase.counters.count (.stamps .relock) + 1 := by
  have own : ∀ step ∈ chairs, ∀ r, step ≠ .serve r := by simp [chairs]
  have plans : firstPurchase.tally (plansMade .divide) chairs = 1 := by decide +kernel
  have lines : firstPurchase.tally linesMade chairs = 3 := by decide +kernel
  have failed : firstPurchase.tally batchesFailed chairs = 1 := by decide +kernel
  have dismissed : firstPurchase.tally (resolved .dismiss) chairs = 1 := by decide +kernel
  have stamped : firstPurchase.tally restamps chairs = 1 := by decide +kernel
  obtain ⟨h₁, h₂, h₃, h₄, h₅, -⟩ := counters_account reachable_firstPurchase own
  have h₁ := h₁ .divide
  have h₄ := h₄ .dismiss
  rw [plans] at h₁
  rw [lines] at h₂
  rw [failed] at h₃
  rw [dismissed] at h₄
  rw [stamped] at h₅
  exact ⟨reachable_firstPurchase, own, h₁, h₂, h₃, h₄, h₅⟩

end Session

end Billfold
