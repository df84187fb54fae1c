import Billfold.Proofs.Ledger.Batch
import Billfold.Proofs.Plan.Length

/-!
# What creating writes

A request is checked as a whole, and what it comes to is written as one batch: its entries, or the
periods of its plan, or no row of them.

* `Planned`        the plan of a request: one for several periods, none for a single one
* `Order`          what a request comes to before anything is written
* `create_eq`      creating is asking, and then writing
* `CreateRun`      how it can run
* `Drafted`        the rows that a request leads to, with its plan
* `create_drafts`  what creating writes, whether or not the rows can be read afterwards
* `create_cases`   the same without the plan
-/

namespace Billfold

open Act

namespace Ledger

variable {s t : Session}

/-! ## the entries to write -/

/-- the plan of a request for `n` periods: one under the next name, or none for a single period -/
inductive Planned (s : Session) (e : NewEntry) (amount : Decimal) (n : Nat) : Option Plan → Prop
  | single (one : n ≤ 1) : Planned s e amount n none
  | several {p : Plan} (more : 1 < n)
      (made : Plan.of s.settings.planRules (.decimal amount) (.int n) e.mode e.date e.givenName
        (nextGroup s) = .ok p) : Planned s e amount n (some p)

/-- how many names of groups a request uses up -/
def groupsOf (plan : Option Plan) : Nat := if plan.isSome then 1 else 0

theorem planFor_ok {e : NewEntry} {amount : Decimal} {n : Nat} {plan : Option Plan}
    (h : (planFor e amount n).exec s = (.ok plan, t)) :
    Planned s e amount n plan ∧ t.clock = s.clock ∧ t.book = s.book ∧ t.usedIds = s.usedIds ∧
      t.usedGroups = s.usedGroups + groupsOf plan := by
  unfold planFor at h
  by_cases one : n ≤ 1
  · rw [if_pos one] at h
    cases h
    exact ⟨.single one, rfl, rfl, rfl, rfl⟩
  · rw [if_neg one] at h
    obtain ⟨_, _, got, run⟩ := exec_bind_ok h
    cases got
    obtain ⟨p, _, made, run⟩ := exec_bind_ok run
    obtain ⟨of, rfl⟩ := exec_ofResult_ok made
    cases run
    exact ⟨.several (Nat.lt_of_not_le one) of, rfl, rfl, rfl, rfl⟩

theorem sameBook_useGroup (s : Session) :
    s.SameBook { s with usedGroups := s.usedGroups + 1 } := rfl

theorem within_planFor {R : Session → Session → Prop} [Session.Chain R]
    (h : ∀ s : Session, R s { s with usedGroups := s.usedGroups + 1 }) (e : NewEntry)
    (amount : Decimal) (n : Nat) : Within R (planFor e amount n) := by
  unfold planFor
  split
  · exact within_pure _
  · exact within_bind within_get fun _ => within_bind (within_ofResult _) fun _ =>
      within_bind (within_modify h) fun _ => within_pure _

theorem Planned.length_candidates {e : NewEntry} {amount : Decimal} {n : Nat} {plan : Option Plan}
    {v : Json} (hn : readCount s.settings.maxInstallments v = .ok n)
    (h : Planned s e amount n plan) (base : Entry) : (candidates base plan).length = n := by
  cases h with
  | single one =>
    have := clampCount_pos (Except.bind_eq_ok.1 hn).choose_spec.2
    exact (Nat.le_antisymm one this).symm
  | several more made =>
    have lines := Plan.length_lines made
    rw [show s.settings.planRules.maxCount = s.settings.maxInstallments from rfl,
      readCount_int hn] at lines
    show (List.map _ _).length = n
    rw [List.length_map]
    cases lines
    rfl

/-- what an entry to write takes from the request -/
structure Asked (e : NewEntry) (account : String) (c : Entry) : Prop where
  account : c.account = account
  deferred : c.deferred = e.deferred
  month : c.month = none
  lockedAt : c.lockedAt = none
  suggestion : c.suggestion = none
  extra : c.extra = []

theorem asked_of_candidate {e : NewEntry} {a : Account} {amount : Decimal} {plan : Option Plan}
    {c : Entry} (h : c ∈ candidates (e.base a amount) plan) : Asked e a.id c := by
  cases plan with
  | none =>
    rw [List.mem_singleton.1 h]
    exact ⟨rfl, rfl, rfl, rfl, rfl, rfl⟩
  | some p =>
    obtain ⟨line, -, rfl⟩ := List.mem_map.1 h
    exact ⟨rfl, rfl, rfl, rfl, rfl, rfl⟩

/-! ## creating -/

theorem exec_mapM_ofFault {α β : Type} (f : α → Except Fault β) (as : List α) (s : Session) :
    (as.mapM fun a => ofFault (f a)).exec s = (Except.liftFault (as.mapM f), s) := by
  induction as with
  | nil => rfl
  | cons a as ih =>
    rw [List.mapM_cons, List.mapM_cons, exec_bind, exec_ofFault]
    cases f a with
    | error _ => rfl
    | ok b =>
      simp only [Except.liftFault]
      rw [exec_bind, ih]
      cases as.mapM f with
      | error _ => rfl
      | ok bs => rfl

theorem exec_recordPlan (request : Option String) (account : String) (p : Plan) (s : Session) :
    ∃ t, (recordPlan request account p).exec s = (.ok (), t) ∧ s.Quiet t := by
  unfold recordPlan
  obtain ⟨t, counted, quiet⟩ := exec_count (.plans p.mode) 1 s
  obtain ⟨u, counted', quiet'⟩ := exec_count .planLines p.lines.length t
  obtain ⟨v, noted, quiet''⟩ := exec_note .info "Installments created"
    (planFields request account p) u
  refine ⟨v, ?_, Session.Chain.trans quiet (Session.Chain.trans quiet' quiet'')⟩
  rw [exec_bind, counted]
  simp only
  rw [exec_bind, counted']
  exact noted

/-- what creating writes: the rows of `n` entries, each for the account under its policy -/
structure Created (s : Session) (e : NewEntry) (rows : List Row) : Prop where
  storeUp : s.storeUp = true
  written : ∃ account policy entries, s.book.account? e.account = some account ∧
    account.policy = .ok policy ∧
    readCount s.settings.maxInstallments e.count = .ok entries.length ∧
    (∀ c ∈ entries, Asked e e.account c) ∧ Written policy s.clock s.usedIds entries rows

structure Drafted (s : Session) (e : NewEntry) (plan : Option Plan) (rows : List Row) : Prop where
  storeUp : s.storeUp = true
  written : ∃ account policy amount n, s.book.account? e.account = some account ∧
    account.policy = .ok policy ∧ e.amount.signed e.nature = .ok amount ∧
    readCount s.settings.maxInstallments e.count = .ok n ∧ Planned s e amount n plan ∧
    Written policy s.clock s.usedIds (candidates (e.base account amount) plan) rows

theorem Drafted.created {e : NewEntry} {plan : Option Plan} {rows : List Row}
    (h : Drafted s e plan rows) : Created s e rows := by
  obtain ⟨account, policy, amount, n, found, told, -, count, planned, written⟩ := h.written
  refine ⟨h.storeUp, account, policy, _, found, told, ?_, ?_, written⟩
  · rw [planned.length_candidates count, count]
  · intro c hc
    rw [← Book.id_of_account? found]
    exact asked_of_candidate hc

theorem Drafted.of_quiet (quiet : s.Quiet t) {e : NewEntry} {plan : Option Plan} {rows : List Row}
    (h : Drafted t e plan rows) : Drafted s e plan rows := by
  obtain ⟨up, account, policy, amount, n, found, told, signed, count, planned, written⟩ := h
  rw [quiet.storeUp] at up
  rw [quiet.book] at found
  rw [quiet.settings] at count
  rw [quiet.clock, quiet.usedIds] at written
  refine ⟨up, account, policy, amount, n, found, told, signed, count, ?_, written⟩
  cases planned with
  | single one => exact .single one
  | several more made =>
    unfold nextGroup at made
    rw [quiet.settings, quiet.usedGroups] at made
    exact .several more made

/-- the request that the log names has no part in a draft -/
theorem Drafted.of_request {e : NewEntry} {request : Option String} {plan : Option Plan}
    {rows : List Row} (h : Drafted s { e with request } plan rows) : Drafted s e plan rows := by
  obtain ⟨up, account, policy, amount, n, found, told, signed, count, planned, written⟩ := h
  refine ⟨up, account, policy, amount, n, found, told, signed, count, ?_, written⟩
  cases planned with
  | single one => exact .single one
  | several more made => exact .several more made

/-! ### asking, and then writing -/

structure Order where
  account : Account
  policy : Option Policy
  amount : Decimal
  plan : Option Plan

/-- what is asked and checked before the first row is written -/
def order (e : NewEntry) : Act Order := do
  let account ← require ((← book).account? e.account) (.notFound (.account e.account))
  let amount ← ofResult (e.amount.signed e.nature)
  let n ← ofResult (readCount (← get).settings.maxInstallments e.count)
  let policy ← ofResult account.policy
  let plan ← planFor e amount n
  return { account, policy, amount, plan }

/-- the plan of an order, told once its rows are written -/
def tellPlan (e : NewEntry) (o : Order) : Act Unit :=
  match o.plan with
  | some p => recordPlan e.request o.account.id p
  | none => pure ()

/-- the rows of an order written, told and read -/
def write (e : NewEntry) (o : Order) : Act (List Entry) := do
  let rows ← addBatch o.policy e.isWritable (candidates (e.base o.account o.amount) o.plan)
  tellPlan e o
  rows.mapM fun row => ofFault row.entry

theorem create_eq (e : NewEntry) : create e = order e >>= write e := by
  unfold create order write tellPlan
  simp only [bind_assoc, pure_bind]
  refine bind_congr fun b => bind_congr fun account => bind_congr fun amount => bind_congr fun s =>
    bind_congr fun n => bind_congr fun policy => bind_congr fun plan => bind_congr fun rows => ?_
  cases plan with
  | none => rfl
  | some p => rfl

theorem within_order {R : Session → Session → Prop} [Session.Chain R]
    (h : ∀ s : Session, R s { s with usedGroups := s.usedGroups + 1 }) (e : NewEntry) :
    Within R (order e) :=
  within_bind within_book fun _ => within_bind (within_require _ _) fun _ =>
    within_bind (within_ofResult _) fun _ => within_bind within_get fun _ =>
    within_bind (within_ofResult _) fun _ => within_bind (within_ofResult _) fun _ =>
    within_bind (within_planFor h _ _ _) fun _ => within_pure _

theorem order_ok {e : NewEntry} {o : Order} (h : (order e).exec s = (.ok o, t)) :
    (∀ rows, Written o.policy s.clock s.usedIds (candidates (e.base o.account o.amount) o.plan)
      rows → Drafted s e o.plan rows) ∧ t.clock = s.clock ∧ t.book = s.book ∧
      t.usedIds = s.usedIds ∧ t.usedGroups = s.usedGroups + groupsOf o.plan := by
  unfold order at h
  obtain ⟨b, _, asked, run⟩ := exec_bind_ok h
  obtain ⟨up, rfl, rfl⟩ := exec_book_ok asked
  obtain ⟨account, _, looked, run⟩ := exec_bind_ok run
  obtain ⟨found, rfl⟩ := exec_require_ok looked
  obtain ⟨amount, _, given, run⟩ := exec_bind_ok run
  obtain ⟨signed, rfl⟩ := exec_ofResult_ok given
  obtain ⟨_, _, got, run⟩ := exec_bind_ok run
  cases got
  obtain ⟨n, _, counted, run⟩ := exec_bind_ok run
  obtain ⟨hn, rfl⟩ := exec_ofResult_ok counted
  obtain ⟨policy, _, told, run⟩ := exec_bind_ok run
  obtain ⟨hp, rfl⟩ := exec_ofResult_ok told
  obtain ⟨plan, u, planning, run⟩ := exec_bind_ok run
  obtain ⟨planned, clock, same, ids, groups⟩ := planFor_ok planning
  cases run
  refine ⟨fun rows written => ?_, clock, same, ids, groups⟩
  exact ⟨up, account, policy, amount, n, found, hp, signed, hn, planned, written⟩

theorem exec_tellPlan (e : NewEntry) (o : Order) (s : Session) :
    ∃ t, (tellPlan e o).exec s = (.ok (), t) ∧ s.Quiet t := by
  unfold tellPlan
  cases o.plan with
  | none => exact ⟨s, rfl, Session.Chain.refl s⟩
  | some p => exact exec_recordPlan _ _ _ s

/-- how creating runs: it is refused before the first row, its batch fails, or all is written and
told, and then read -/
inductive CreateRun (s : Session) (e : NewEntry) : Except Error (List Entry) → Session → Prop
  | refused {err : Error} {t : Session} (asked : (order e).exec s = (.error err, t)) :
      CreateRun s e (.error err) t
  | failed {o : Order} {u t : Session} {err : Error} (asked : (order e).exec s = (.ok o, u))
      (batch : (addBatch o.policy e.isWritable
        (candidates (e.base o.account o.amount) o.plan)).exec u = (.error err, t)) :
      CreateRun s e (.error err) t
  | written {o : Order} {u v t : Session} {rows : List Row}
      (asked : (order e).exec s = (.ok o, u))
      (batch : (addBatch o.policy e.isWritable
        (candidates (e.base o.account o.amount) o.plan)).exec u = (.ok rows, v))
      (told : (tellPlan e o).exec v = (.ok (), t)) :
      CreateRun s e (Except.liftFault (rows.mapM Row.entry)) t

theorem create_run {e : NewEntry} {x : Except Error (List Entry)}
    (h : (create e).exec s = (x, t)) : CreateRun s e x t := by
  rw [create_eq] at h
  rcases exec_bind_cases h with ⟨err, asked, rfl⟩ | ⟨o, u, asked, run⟩
  · exact .refused asked
  rcases exec_bind_cases run with ⟨err, batch, rfl⟩ | ⟨rows, v, batch, run⟩
  · exact .failed asked batch
  obtain ⟨w, told, -⟩ := exec_tellPlan e o v
  rw [exec_bind_of_ok told, exec_mapM_ofFault] at run
  cases run
  exact .written asked batch told

/-- **All that was asked for is written, or nothing.**  After it is written, a row that cannot be
read is a fault and all stay written. -/
theorem create_drafts (num : s.book.Numbered s.usedIds) {e : NewEntry}
    {x : Except Error (List Entry)} (h : (create e).exec s = (x, t)) :
    (∃ err, x = .error err ∧ t.book = s.book) ∨
      ∃ plan rows, Drafted s e plan rows ∧ t.book = s.book.addRows rows ∧
        t.usedIds = s.usedIds + rows.length ∧ s.usedGroups + groupsOf plan ≤ t.usedGroups ∧
        x = Except.liftFault (rows.mapM Row.entry) := by
  cases create_run h with
  | refused asked => exact .inl ⟨_, rfl, (within_order sameBook_useGroup e).of_exec asked⟩
  | failed asked batch =>
    obtain ⟨-, -, same, ids, -⟩ := order_ok asked
    rw [← same, ← ids] at num
    rcases addBatch_cases num batch with ⟨_, -, kept⟩ | ⟨_, e, -⟩
    · exact .inl ⟨_, rfl, kept.trans same⟩
    · cases e
  | @written o u v _ rows asked batch told =>
    obtain ⟨drafted, clock, same, ids, groups⟩ := order_ok asked
    rw [← same, ← ids] at num
    have grown := ((within_addBatch (Session.allows_later _) (Session.allows_later _)
      (Session.allows_later _) _ _ _).of_exec batch).usedGroups
    rw [groups] at grown
    rcases addBatch_cases num batch with ⟨_, e, -⟩ | ⟨_, e, written, put, used⟩
    · cases e
    cases e
    rw [clock, ids] at written
    rw [same] at put
    rw [ids] at used
    obtain ⟨w, told', quiet⟩ := exec_tellPlan e o v
    rw [told] at told'
    cases told'
    exact .inr ⟨o.plan, rows, drafted rows written, quiet.book.trans put, quiet.usedIds.trans used,
      Nat.le_trans grown (Nat.le_of_eq quiet.usedGroups.symm), rfl⟩

theorem create_cases (num : s.book.Numbered s.usedIds) {e : NewEntry}
    {x : Except Error (List Entry)} (h : (create e).exec s = (x, t)) :
    (∃ err, x = .error err ∧ t.book = s.book) ∨
      ∃ rows, Created s e rows ∧ t.book = s.book.addRows rows ∧
        t.usedIds = s.usedIds + rows.length ∧ x = Except.liftFault (rows.mapM Row.entry) := by
  rcases create_drafts num h with failed | ⟨plan, rows, drafted, put, used, -, e⟩
  · exact .inl failed
  · exact .inr ⟨rows, drafted.created, put, used, e⟩

/-! ## what creating stays within -/

section

variable {R : Session → Session → Prop} [Session.Backdrop R]

theorem within_tellPlan (plans : ∀ mode, Session.Allows R (.plans mode))
    (lines : Session.Allows R .planLines) (e : NewEntry) (o : Order) :
    Within R (tellPlan e o) := by
  unfold tellPlan
  split
  · exact within_bind (within_count (plans _) 1) fun _ =>
      within_bind (within_count lines _) fun _ => within_note _ _ _
  · exact within_pure _

theorem within_create (skips : Session.Allows R (.stamps .skipped))
    (stamps : Session.Allows R (.stamps .create)) (fails : Session.Allows R .failedBatches)
    (plans : ∀ mode, Session.Allows R (.plans mode)) (lines : Session.Allows R .planLines)
    (e : NewEntry) : Within R (create e) := by
  rw [create_eq]
  exact within_bind (within_order Session.Backdrop.grouped e) fun o =>
    within_bind (within_addBatch skips stamps fails _ _ _) fun _ =>
    within_bind (within_tellPlan plans lines e o) fun _ =>
    within_mapM (fun _ => within_ofFault _) _

end

theorem later_create (e : NewEntry) : Within Session.Later (create e) :=
  within_create (Session.allows_later _) (Session.allows_later _) (Session.allows_later _)
    (fun _ => Session.allows_later _) (Session.allows_later _) e

end Ledger

end Billfold
