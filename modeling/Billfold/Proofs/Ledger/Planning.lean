import Billfold.Proofs.Ledger.Counting
import Billfold.Proofs.Ledger.Periods

/-!
# What creating counts

A batch that the store refuses is counted as it is told, and a plan once its rows are in the book.

* `Except.Unbatched`, `Act.Unbatched`   results and operations that do not say that a batch failed
* `counts_failed`        failed batches are counted as creating says so
* `counts_plan`          plans and their lines are counted as their rows are added to the book
-/

namespace Billfold

open Act

/-! ## results that do not say that a batch failed -/

/-- a result that does not say that a batch failed -/
def Except.Unbatched {α : Type} (x : Except Error α) : Prop := ∀ n, x ≠ .error (.batchFailed n)

namespace Except

variable {α β : Type}

theorem Unbatched.bind {x : Except Error α} {f : α → Except Error β} (h : Unbatched x)
    (rest : ∀ a, Unbatched (f a)) : Unbatched (x >>= f) := by
  cases x with
  | error e => exact fun n same => h n (by cases same; rfl)
  | ok a => exact rest a

theorem unbatched_ok (a : α) : Unbatched (.ok a) := fun _ same => nomatch same

theorem unbatched_refused (why : Refusal) : Unbatched (.error (.refused why) : Except Error α) :=
  fun _ same => nomatch same

theorem unbatched_fault (f : Fault) : Unbatched (.error (.fault f) : Except Error α) :=
  fun _ same => nomatch same

theorem unbatched_liftFault (x : Except Fault α) : Unbatched (liftFault x) := by
  cases x with
  | error f => exact unbatched_fault f
  | ok a => exact unbatched_ok a

end Except

open Billfold.Except

theorem Amount.unbatched_read (a : Amount) : Except.Unbatched a.read := by
  have finite (x : Decimal) (shown : String) : Except.Unbatched (finite x shown) := by
    unfold Amount.finite
    split
    · exact unbatched_ok x
    · exact unbatched_refused _
  cases a with
  | decimal x => exact finite _ _
  | value v =>
    show Except.Unbatched (readValue v)
    unfold readValue
    split
    · exact unbatched_refused _
    · exact unbatched_refused _
    · split
      · exact finite _ _
      · exact unbatched_refused _

theorem Amount.unbatched_signed (a : Amount) (nature : Json) :
    Except.Unbatched (a.signed nature) := by
  unfold signed
  split
  · exact unbatched_refused _
  · exact a.unbatched_read.bind fun _ => unbatched_liftFault _

theorem unbatched_readCount (limit : Int) (v : Json) : Except.Unbatched (readCount limit v) := by
  have whole : Except.Unbatched (wholeCount v) := by
    unfold wholeCount
    split
    · exact unbatched_ok _
    · split
      · exact unbatched_ok _
      · exact unbatched_fault _
      · exact unbatched_refused _
  refine whole.bind fun n => ?_
  unfold clampCount
  split
  · exact unbatched_refused _
  · exact unbatched_ok _

theorem Account.unbatched_policy (a : Account) : Except.Unbatched a.policy := by
  have dueDay : Except.Unbatched (Policy.dueDayOf a.dueDay) := by
    unfold Policy.dueDayOf
    split
    · exact unbatched_ok _
    · split
      · exact unbatched_ok _
      · exact unbatched_refused _
  have cutoff : Except.Unbatched (Policy.cutoffDaysOf a.cutoffDays) := by
    unfold Policy.cutoffDaysOf
    split
    · exact unbatched_ok _
    · split
      · exact unbatched_refused _
      · exact unbatched_ok _
  unfold policy Policy.ofAccount
  split
  · rw [map_eq_pure_bind]
    exact (dueDay.bind fun _ => cutoff.bind fun _ => unbatched_ok _).bind fun _ => unbatched_ok _
  · exact unbatched_ok _

theorem Plan.unbatched_of (rules : PlanRules) (amount : Amount) (count mode : Json) (start : Date)
    (name group : String) :
    Except.Unbatched (Plan.of rules amount count mode start name group) := by
  have named : Except.Unbatched (Mode.read rules.defaultMode mode) := by
    unfold Mode.read
    split
    · split
      · exact unbatched_ok _
      · exact unbatched_fault _
    · split
      · exact unbatched_ok _
      · exact unbatched_refused _
  exact amount.unbatched_read.bind fun _ => (unbatched_readCount _ _).bind fun _ =>
    named.bind fun _ => (unbatched_liftFault _).bind fun _ => (unbatched_liftFault _).bind fun _ =>
    unbatched_ok _

/-! ## operations that do not say so -/

namespace Act

/-- an operation none of whose runs says that a batch failed -/
def Unbatched {α : Type} (act : Act α) : Prop := ∀ s, Except.Unbatched (act.exec s).1

variable {α β : Type}

theorem Unbatched.bind {act : Act α} {next : α → Act β} (h : Unbatched act)
    (rest : ∀ a, Unbatched (next a)) : Unbatched (act >>= next) := by
  intro s n same
  rcases e : (act >>= next).exec s with ⟨x, t⟩
  rw [e] at same
  rcases exec_bind_cases e with ⟨err, failed, rfl⟩ | ⟨a, u, -, run⟩
  · cases same
    refine h s n ?_
    rw [failed]
  · refine rest a u n ?_
    rw [run]
    exact same

theorem unbatched_ofResult {x : Except Error α} (h : Except.Unbatched x) : Unbatched (ofResult x) :=
  fun _ => h

theorem unbatched_ofFault (x : Except Fault α) : Unbatched (ofFault x) :=
  fun _ => unbatched_liftFault x

theorem unbatched_pure (a : α) : Unbatched (pure a : Act α) := fun _ => unbatched_ok a

theorem unbatched_fault (f : Fault) : Unbatched (fail (.fault f) : Act α) :=
  fun _ => Except.unbatched_fault f

theorem unbatched_get : Unbatched (get : Act Session) := fun _ => unbatched_ok _

theorem unbatched_modify (f : Session → Session) : Unbatched (modify f : Act Unit) :=
  fun _ => unbatched_ok _

theorem unbatched_statement : Unbatched statement := by
  intro s
  rw [exec_statement]
  cases s.storeUp with
  | true => exact unbatched_ok _
  | false => exact Except.unbatched_fault _

theorem unbatched_book : Unbatched book :=
  unbatched_statement.bind fun _ => unbatched_get.bind fun _ => unbatched_pure _

theorem unbatched_needWritable (ok : Bool) : Unbatched (needWritable ok) := by
  cases ok with
  | true => exact unbatched_pure _
  | false => exact unbatched_fault _

theorem unbatched_mapM {act : α → Act β} (h : ∀ a, Unbatched (act a)) (as : List α) :
    Unbatched (as.mapM act) := by
  induction as with
  | nil => exact unbatched_pure _
  | cons a as ih =>
    rw [List.mapM_cons]
    exact (h a).bind fun _ => ih.bind fun _ => unbatched_pure _

theorem unbatched_transact {act : Act α} (h : Unbatched act) : Unbatched (transact act) := by
  intro s n same
  rcases e : (transact act).exec s with ⟨x, t⟩
  rw [e] at same
  rcases exec_transact_cases e with ⟨a, rfl, -⟩ | ⟨err, u, rfl, failed, -⟩
  · cases same
  · refine h s n ?_
    rw [failed]
    exact same

end Act

namespace Ledger

theorem unbatched_addRow (ok : Bool) (e : Entry) : Unbatched (addRow ok e) := by
  have tried : Unbatched tryRow := by
    refine unbatched_get.bind fun s => ?_
    split
    · exact unbatched_pure _
    · exact unbatched_pure _
    · exact (unbatched_modify _).bind fun _ => Act.unbatched_fault _
    · exact unbatched_modify _
  have named : Unbatched freshId :=
    unbatched_get.bind fun _ => (unbatched_modify _).bind fun _ => unbatched_pure _
  refine unbatched_statement.bind fun _ => tried.bind fun _ => named.bind fun _ =>
    (unbatched_needWritable _).bind fun _ => ?_
  dsimp only
  split
  · exact unbatched_get.bind fun _ => (unbatched_modify _).bind fun _ => unbatched_pure _
  · exact (Act.unbatched_fault _).bind fun _ => unbatched_pure _

theorem unbatched_addStamped (policy : Option Policy) (ok : Bool) (e : Entry) :
    Unbatched (addStamped policy ok e) := by
  have stamped (r : Row) : Unbatched (stampRow policy r .create) := by
    refine unbatched_get.bind fun _ => (unbatched_ofFault _).bind fun stamp => ?_
    cases stamp with
    | none => exact (unbatched_modify _).bind fun _ => unbatched_pure _
    | some stamp =>
      exact (unbatched_modify _).bind fun _ => (unbatched_modify _).bind fun _ => unbatched_pure _
  refine (unbatched_addRow ok e).bind fun _ => (stamped _).bind fun _ => ?_
  split
  · exact unbatched_get.bind fun _ => (unbatched_modify _).bind fun _ => unbatched_pure _
  · exact Act.unbatched_fault _

theorem unbatched_order (e : NewEntry) : Unbatched (order e) := by
  have found (a : Option Account) (missing : Missing) :
      Unbatched (require a (.notFound missing)) := by
    intro s n same
    rw [exec_require] at same
    cases a <;> cases same
  have planned (amount : Decimal) (n : Nat) : Unbatched (planFor e amount n) := by
    unfold planFor
    split
    · exact unbatched_pure _
    · exact unbatched_get.bind fun _ =>
        (unbatched_ofResult (Plan.unbatched_of _ _ _ _ _ _ _)).bind fun _ =>
        (unbatched_modify _).bind fun _ => unbatched_pure _
  exact unbatched_book.bind fun _ => (found _ _).bind fun _ =>
    (unbatched_ofResult (Amount.unbatched_signed _ _)).bind fun _ => unbatched_get.bind fun _ =>
    (unbatched_ofResult (unbatched_readCount _ _)).bind fun _ =>
    (unbatched_ofResult (Account.unbatched_policy _)).bind fun _ => (planned _ _).bind fun _ =>
    unbatched_pure _

/-! ## what creating counts -/

variable {s t : Session}

def failedBatch {α : Type} : Except Error α → Nat
  | .ok _ => 0
  | .error e =>
    match e with
    | .batchFailed _ => 1
    | _ => 0

theorem failedBatch_of_unbatched {α : Type} {x : Except Error α} (h : Except.Unbatched x) :
    failedBatch x = 0 := by
  unfold failedBatch
  split
  · rfl
  · split
    · next n => exact absurd rfl (h n)
    · rfl

theorem counts_addBatch {policy : Option Policy} {ok : Bool} {es : List Entry}
    {x : Except Error (List Row)} (h : (addBatch policy ok es).exec s = (x, t)) :
    t.counters.count .failedBatches = s.counters.count .failedBatches + failedBatch x := by
  have other (reason : StampReason) : Counter.failedBatches ≠ .stamps reason := nofun
  have leaves : Within (Session.Leaves .failedBatches)
      (transact (es.mapM (addStamped policy ok))) :=
    within_transact (within_mapM (within_addStamped (Session.allows_leaves (other _))
      (Session.allows_leaves (other _)) policy ok) es)
  have gentle : Unbatched (transact (es.mapM (addStamped policy ok))) :=
    unbatched_transact (unbatched_mapM (unbatched_addStamped policy ok) es)
  unfold addBatch at h
  rcases exec_onFailure_cases h with ⟨rows, rfl, done⟩ | ⟨e, u, failed, handled⟩
  · exact leaves.of_exec done
  have left : s.Leaves .failedBatches u := leaves.of_exec failed
  split at handled
  · cases handled
    refine (Counters.count_add_self _ _ _).trans ?_
    rw [left]
    rfl
  · cases handled
    have unbatched := gentle s
    rw [failed] at unbatched
    rw [failedBatch_of_unbatched fun n same => unbatched n (by cases same; rfl), left]
    rfl

/-- **A failed batch is counted exactly if creating says that it failed.** -/
theorem counts_failed {e : NewEntry} {x : Except Error (List Entry)}
    (h : (create e).exec s = (x, t)) :
    t.counters.count .failedBatches = s.counters.count .failedBatches + failedBatch x := by
  have ordered : Within (Session.Leaves .failedBatches) (order e) :=
    within_order Session.Backdrop.grouped e
  cases create_run h with
  | refused asked =>
    have unbatched := unbatched_order e s
    rw [asked] at unbatched
    rw [failedBatch_of_unbatched fun n same => unbatched n (by cases same; rfl)]
    exact ordered.of_exec asked
  | failed asked batch =>
    have counted := counts_addBatch batch
    rw [show _ = _ from ordered.of_exec asked] at counted
    exact counted
  | @written o u v t rows asked batch told =>
    have counted := counts_addBatch batch
    rw [show _ = _ from ordered.of_exec asked] at counted
    have plans (mode : Mode) : Counter.failedBatches ≠ .plans mode := nofun
    have lines : Counter.failedBatches ≠ .planLines := nofun
    have telling : Within (Session.Leaves .failedBatches) (tellPlan e o) :=
      within_tellPlan (fun mode => Session.allows_leaves (plans mode))
        (Session.allows_leaves lines) e o
    rw [show _ = _ from telling.of_exec told, counted]
    rw [failedBatch_of_unbatched (unbatched_liftFault _)]
    rfl

/-- whether a plan is in a mode, as a number -/
def plansIn (plan : Option Plan) (mode : Mode) : Nat :=
  match plan with
  | some p => if p.mode = mode then 1 else 0
  | none => 0

/-- the number of lines of a plan, if there is one -/
def linesIn (plan : Option Plan) : Nat :=
  match plan with
  | some p => p.lines.length
  | none => 0

theorem counts_tellPlan {e : NewEntry} {o : Order} {a : Unit}
    (h : (tellPlan e o).exec s = (.ok a, t)) :
    (∀ mode, t.counters.count (.plans mode) =
      s.counters.count (.plans mode) + plansIn o.plan mode) ∧
    t.counters.count .planLines = s.counters.count .planLines + linesIn o.plan := by
  unfold tellPlan at h
  cases plan : o.plan with
  | none =>
    rw [plan] at h
    cases h
    exact ⟨fun _ => rfl, rfl⟩
  | some p =>
    rw [plan] at h
    have counters : t.counters =
        (s.counters.add (.plans p.mode) 1).add .planLines p.lines.length := by
      have noted := counters_note .info "Installments created"
        (planFields e.request o.account.id p)
        { s with counters := (s.counters.add (.plans p.mode) 1).add .planLines p.lines.length }
      refine Eq.trans ?_ noted
      exact (congrArg (fun run => run.2.counters) h).symm
    rw [counters]
    constructor
    · intro mode
      rw [Counters.count_add_of_ne _ _ (show Counter.plans mode ≠ .planLines from nofun)]
      by_cases same : p.mode = mode
      · subst same
        rw [Counters.count_add_self, plansIn, if_pos rfl]
      · rw [Counters.count_add_of_ne _ _ fun h => same (Counter.plans.inj h).symm, plansIn,
          if_neg same, Nat.add_zero]
    · rw [Counters.count_add_self,
        Counters.count_add_of_ne _ _ (show Counter.planLines ≠ .plans p.mode from nofun)]
      rfl

theorem counts_plan (num : s.book.Numbered s.usedIds) {e : NewEntry} {x : Except Error (List Entry)}
    (h : (create e).exec s = (x, t)) :
    (t.book = s.book ∧ (∀ mode, s.Leaves (.plans mode) t) ∧ s.Leaves .planLines t) ∨
      ∃ plan rows, Drafted s e plan rows ∧ t.book = s.book.addRows rows ∧
        (∀ mode, t.counters.count (.plans mode) =
          s.counters.count (.plans mode) + plansIn plan mode) ∧
        t.counters.count .planLines = s.counters.count .planLines + linesIn plan := by
  have ordered (c : Counter) : Within (Session.Leaves c) (order e) :=
    within_order Session.Backdrop.grouped e
  have batched (c : Counter) (stamps : ∀ reason, c ≠ .stamps reason) (fails : c ≠ .failedBatches)
      (o : Order) : Within (Session.Leaves c) (addBatch o.policy e.isWritable
        (candidates (e.base o.account o.amount) o.plan)) :=
    within_addBatch (Session.allows_leaves (stamps _)) (Session.allows_leaves (stamps _))
      (Session.allows_leaves fails) _ _ _
  have plans (mode : Mode) := batched (.plans mode) nofun nofun
  have lines := batched .planLines nofun nofun
  cases create_run h with
  | refused asked =>
    exact .inl ⟨(within_order sameBook_useGroup e).of_exec asked,
      fun mode => (ordered _).of_exec asked, (ordered _).of_exec asked⟩
  | @failed o u t err asked batch =>
    obtain ⟨-, -, same, ids, -⟩ := order_ok asked
    rw [← same, ← ids] at num
    rcases addBatch_cases num batch with ⟨_, -, kept⟩ | ⟨_, e, -⟩
    · exact .inl ⟨kept.trans same,
        fun mode => Session.Chain.trans ((ordered _).of_exec asked) ((plans mode o).of_exec batch),
        Session.Chain.trans ((ordered _).of_exec asked) ((lines o).of_exec batch)⟩
    · cases e
  | @written o u v t rows asked batch told =>
    obtain ⟨drafted, clock, same, ids, groups⟩ := order_ok asked
    rw [← same, ← ids] at num
    rcases addBatch_cases num batch with ⟨_, e, -⟩ | ⟨_, e, written, put, used⟩
    · cases e
    cases e
    rw [clock, ids] at written
    rw [same] at put
    obtain ⟨w, told', quiet⟩ := exec_tellPlan e o v
    rw [told] at told'
    cases told'
    obtain ⟨modes, count⟩ := counts_tellPlan told
    refine .inr ⟨o.plan, rows, drafted rows written, quiet.book.trans put, fun mode => ?_, ?_⟩
    · have left : s.Leaves (.plans mode) v :=
        Session.Chain.trans ((ordered _).of_exec asked) ((plans mode o).of_exec batch)
      rw [modes, left]
    · have left : s.Leaves .planLines v :=
        Session.Chain.trans ((ordered _).of_exec asked) ((lines o).of_exec batch)
      rw [count, left]

end Ledger

end Billfold
