import Billfold.Proofs.Http.Respond
import Billfold.Proofs.Session.Reachable

/-!
# Requests that fail after they have changed something

A request for a change is carried out first, and then its rows are read again and shown.  Where they
cannot be shown the request fails, and the change stays.

* `Book.Shows`             a row can be read and shown
* `failed_showEntry`       an entry is not shown where its row cannot be
* `FailsAsShown`           an answer fails where a row that was changed cannot be shown
* `failsAsShown_respond`   the answers of all routes are of this kind
* `failed_request_changes_nothing_iff`   so are those of all requests
-/

namespace Billfold

/-- a suggestion can be shown: its id can be written, its reason is a text, if there is one, and its
amount a number -/
def Suggestion.Shows (s : Suggestion) : Prop :=
  s.hasWholeId = true ∧ (s.reason = .null ∨ ∃ text, s.reason = .text text) ∧
    ∀ x, s.postedAmount = some x → x.isFinite

/-- a tag can be shown: its group can be written -/
def Tag.Shows (t : Tag) : Prop := t.group.isSome

/-- a row can be shown: its account is there with valid settings, the row can be read, its payment
date is a day of the calendar, and its suggestion and its tag can be shown -/
def Book.Shows (b : Book) (r : Row) : Prop :=
  ∃ account policy entry due, b.account? r.account = some account ∧ account.policy = .ok policy ∧
    r.entry = .ok entry ∧ shownDue policy entry.charge = .ok due ∧
    (∀ s, entry.suggestion = some s → s.Shows) ∧ ∀ t, entry.tag = some t → t.Shows

namespace Http

open Act

variable {s t : Session} {id : String} {r : Row}

/-! ## showing -/

theorem renderSuggestion?_isSome (g : Suggestion) : (renderSuggestion? g).isSome ↔ g.Shows := by
  have amount : g.postedAmount.all Decimal.isFinite ↔
      ∀ x, g.postedAmount = some x → x.isFinite := by
    cases g.postedAmount with
    | none => exact ⟨fun _ _ h => (nomatch h), fun _ => rfl⟩
    | some x => exact ⟨fun h y e => by cases e; exact h, fun h => h x rfl⟩
  unfold renderSuggestion? Suggestion.Shows
  rw [← amount]
  -- a reason is null, a text, or what cannot be shown
  cases g.reason with
  | null => cases g.hasWholeId <;> cases g.postedAmount.all Decimal.isFinite <;> simp
  | text words => cases g.hasWholeId <;> cases g.postedAmount.all Decimal.isFinite <;> simp
  | _ => simp

theorem renderTag?_isSome (tag : Tag) : (renderTag? tag).isSome ↔ tag.Shows := by
  unfold renderTag? Tag.Shows
  rw [Option.isSome_map]

theorem orNull?_isSome {α : Type} {render? : α → Option Json} {Shows : α → Prop}
    (shows : ∀ a, (render? a).isSome ↔ Shows a) (x : Option α) :
    (orNull? render? x).isSome ↔ ∀ a, x = some a → Shows a := by
  cases x with
  | none => exact ⟨fun _ _ h => (nomatch h), fun _ => rfl⟩
  | some a =>
    show (render? a).isSome ↔ _
    rw [shows]
    exact ⟨fun h _ e => by cases e; exact h, fun h => h a rfl⟩

theorem renderInfo?_isSome (info : Info) :
    (renderInfo? info).isSome ↔ (∀ s, info.entry.suggestion = some s → s.Shows) ∧
      ∀ t, info.entry.tag = some t → t.Shows := by
  rw [← orNull?_isSome renderSuggestion?_isSome, ← orNull?_isSome renderTag?_isSome]
  unfold renderInfo?
  dsimp only
  cases orNull? renderSuggestion? info.entry.suggestion with
  | none => simp
  | some suggestion => cases orNull? renderTag? info.entry.tag <;> simp

/-- **A row can be shown exactly if it is read with its payment date and what is read has a
form.** -/
theorem shows_iff {b : Book} :
    b.Shows r ↔ ∃ info, b.info r = .ok info ∧ (renderInfo? info).isSome := by
  constructor
  · rintro ⟨account, policy, entry, due, found, told, read, due_eq, shows⟩
    refine ⟨⟨entry, due, showsBadge policy entry.charge⟩, ?_, (renderInfo?_isSome _).2 shows⟩
    have asked : b.policyOf r = .ok policy := by
      unfold Book.policyOf
      rw [found]
      exact told
    have due_eq := Except.liftFault_eq_ok.2 due_eq
    have read := Except.liftFault_eq_ok.2 read
    exact Except.bind_eq_ok.2 ⟨policy, asked, Except.bind_eq_ok.2 ⟨entry, read,
      Except.bind_eq_ok.2 ⟨due, due_eq, rfl⟩⟩⟩
  · rintro ⟨info, read, shows⟩
    unfold Book.info at read
    obtain ⟨policy, asked, read⟩ := Except.bind_eq_ok.1 read
    obtain ⟨entry, he, read⟩ := Except.bind_eq_ok.1 read
    obtain ⟨due, hd, read⟩ := Except.bind_eq_ok.1 read
    cases read
    unfold Book.policyOf at asked
    split at asked
    · next account found =>
      exact ⟨account, policy, entry, due, found, asked, Except.liftFault_eq_ok.1 he,
        Except.liftFault_eq_ok.1 hd, (renderInfo?_isSome _).1 shows⟩
    · cases asked

theorem failed_answerTo (e : Error) (s : Session) : Failed ((answerTo e).exec s).1 := by
  cases e with
  | refused why => exact (by decide : 400 ≤ 422)
  | notFound what => exact (by decide : 400 ≤ 404)
  | batchFailed rows => exact trivial
  | fault f => exact trivial

theorem exec_paymentInfo (up : s.storeUp = true) (found : s.book.row? id = some r) :
    (Ledger.paymentInfo id).exec s = (s.book.info r, s) := by
  unfold Ledger.paymentInfo Ledger.rowFor
  simp only [exec_bind, exec_book, exec_require, up, if_pos, found]
  rfl

theorem failed_showEntry (up : s.storeUp = true) (found : s.book.row? id = some r) :
    Failed ((showEntry id).exec s).1 ↔ ¬ s.book.Shows r := by
  rw [shows_iff]
  unfold showEntry
  rw [exec_bind, exec_attempt, exec_paymentInfo up found]
  dsimp only
  cases read : s.book.info r with
  | error e =>
    refine ⟨fun _ => ?_, fun _ => failed_answerTo e s⟩
    rintro ⟨_, e, -⟩
    cases e
  | ok info =>
    dsimp only
    cases shown : renderInfo? info with
    | none =>
      refine ⟨fun _ => ?_, fun _ => trivial⟩
      rintro ⟨_, e, some⟩
      cases e
      rw [shown] at some
      cases some
    | some json =>
      refine ⟨fun h => absurd h (by decide : ¬ 400 ≤ 200), fun h => ?_⟩
      exact absurd ⟨info, rfl, by rw [shown]; rfl⟩ h

/-! ## rows that a request leaves behind -/

/-- a row is new in a book that was another one before -/
def NewIn (before after : Book) (r : Row) : Prop := r ∈ after.rows ∧ r ∉ before.rows

/-- an answer fails exactly if a new row cannot be shown, unless nothing changed -/
def FailsAsShown (before after : Book) (y : Except Error Answer) : Prop :=
  after = before ∨ (Failed y ↔ ∃ r, NewIn before after r ∧ ¬ after.Shows r)

/-- a row put in the place of one of the book is the only new one, or nothing changes -/
theorem failsAsShown_putRow {used : Nat} {b : Book} (num : b.Numbered used) {old : Row}
    {y : Except Error Answer} (found : b.row? id = some old) (same : r.id = id)
    (failed : Failed y ↔ ¬ (b.putRow r).Shows r) : FailsAsShown b (b.putRow r) y := by
  subst same
  by_cases here : r ∈ b.rows
  · exact .inl (num.putRow_of_mem here)
  refine .inr (failed.trans ⟨fun h => ⟨r, ⟨?_, here⟩, h⟩, ?_⟩)
  · exact (Book.mem_putRow found).2 (.inl rfl)
  · rintro ⟨x, ⟨hx, new⟩, h⟩
    rcases (Book.mem_putRow found).1 hx with rfl | ⟨hx, -⟩
    · exact h
    · exact absurd hx new

theorem failed_showAfter {change : Act Entry} {x : Except Error Entry} {u : Session}
    (ran : change.exec s = (x, u)) (up : u.storeUp = true) (found : u.book.row? id = some r)
    (read : (∃ e, x = .ok e) ∨ x = Except.liftFault r.entry) :
    Failed ((showAfter id change).exec s).1 ↔ ¬ u.book.Shows r := by
  unfold showAfter
  rw [exec_bind, exec_attempt, ran]
  dsimp only
  cases x with
  | ok e => exact failed_showEntry up found
  | error err =>
    refine ⟨fun _ => ?_, fun _ => failed_answerTo err u⟩
    rintro ⟨_, _, entry, _, -, -, readable, -⟩
    rcases read with ⟨_, e⟩ | e
    · cases e
    · rw [readable] at e
      cases e

theorem failsAsShown_showAfter {used : Nat} (num : s.book.Numbered used) {change : Act Entry}
    {x : Except Error Entry} {u : Session} {old settled : Row} {y : Except Error Answer}
    (ran : change.exec s = (x, u)) (up : u.storeUp = true) (found : s.book.row? id = some old)
    (same : settled.id = id) (put : u.book = s.book.putRow settled)
    (read : (∃ e, x = .ok e) ∨ x = Except.liftFault settled.entry)
    (h : (showAfter id change).exec s = (y, t)) : FailsAsShown s.book t.book y := by
  have quiet := quiet_showAfter h
  rw [ran] at quiet
  have there : u.book.row? id = some settled := by
    rw [put, ← same]
    exact Book.row?_putRow_self (same ▸ found)
  have failed := failed_showAfter ran up there read
  rw [h, put] at failed
  rw [quiet.book, put]
  exact failsAsShown_putRow num found same failed

theorem failsAsShown_update (num : s.book.Numbered s.usedIds) {c : Changes}
    {y : Except Error Answer} (h : (showAfter id (Ledger.update id c)).exec s = (y, t)) :
    FailsAsShown s.book t.book y := by
  rcases ran : (Ledger.update id c).exec s with ⟨x, u⟩
  have later := (Ledger.later_update id c).of_exec ran
  rcases Ledger.update_cases ran with ⟨_, -, same⟩ | ⟨row, settled, up, found, updated, put, rfl⟩
  · have quiet := quiet_showAfter h
    rw [ran] at quiet
    exact .inl (quiet.book.trans same)
  · obtain ⟨_, settles, keeps⟩ := updated.settles
    have e := (settles.id.trans keeps).trans (Book.id_of_row? found)
    exact failsAsShown_showAfter num ran (later.storeUp.trans up) found e put (.inr rfl) h

theorem failsAsShown_dismiss (num : s.book.Numbered s.usedIds) {request : String}
    {y : Except Error Answer}
    (h : (showAfter id (Ledger.dismiss id (some request))).exec s = (y, t)) :
    FailsAsShown s.book t.book y := by
  rw [Ledger.dismiss_eq] at h
  rcases ran : (Ledger.told id Entry.dismiss (some request) .dismiss).exec s with ⟨x, u⟩
  have later := (Ledger.later_told id _ _ _).of_exec ran
  rcases Ledger.told_cases ran with
    ⟨_, -, same⟩ | ⟨row, entry, settled, up, found, revised, put, rfl⟩
  · have quiet := quiet_showAfter h
    rw [ran] at quiet
    exact .inl (quiet.book.trans same)
  · have e := revised.settles.id.trans (show row.id = id from Book.id_of_row? found)
    exact failsAsShown_showAfter num ran (later.storeUp.trans up) found e put (.inl ⟨entry, rfl⟩) h

theorem failsAsShown_merge {request : String} {y : Except Error Answer}
    (h : (mergeEntry request id).exec s = (y, t)) : FailsAsShown s.book t.book y := by
  rcases ran : (Ledger.merge id (some request)).exec s with ⟨x, u⟩
  have quiet := quiet_mergeEntry h
  rw [ran] at quiet
  rw [quiet.book]
  rcases Ledger.merge_cases ran with ⟨_, -, same⟩ | ⟨row, merged, -, -, -, drop, rfl⟩
  · exact .inl same
  unfold mergeEntry at h
  rw [exec_bind, exec_attempt, ran] at h
  cases h
  refine .inr ⟨fun h => absurd h (by decide : ¬ 400 ≤ 200), ?_⟩
  rintro ⟨x, ⟨hx, new⟩, -⟩
  rw [drop] at hx
  exact absurd (List.mem_filter.1 hx).1 new

/-! ## a batch shown -/

theorem exec_mapM_paymentInfo {used : Nat} (num : s.book.Numbered used) (up : s.storeUp = true)
    {rows : List Row} {entries : List Entry} (there : ∀ row ∈ rows, row ∈ s.book.rows)
    (read : rows.mapM Row.entry = .ok entries) :
    (entries.mapM fun e => Ledger.paymentInfo (e.id.getD "")).exec s =
      (rows.mapM s.book.info, s) := by
  induction rows generalizing entries with
  | nil => cases read; rfl
  | cons row rows ih =>
    obtain ⟨e, es, he, hes, rfl⟩ := Except.mapM_cons_eq_ok.1 read
    have found : s.book.row? (e.id.getD "") = some row := by
      rw [Row.id_of_entry he]
      exact num.row?_eq_some.2 ⟨there row List.mem_cons_self, rfl⟩
    rw [List.mapM_cons, List.mapM_cons, exec_bind, exec_paymentInfo up found]
    cases s.book.info row with
    | error _ => rfl
    | ok info =>
      dsimp only
      rw [exec_bind, ih (fun r hr => there r (List.mem_cons_of_mem _ hr)) hes]
      cases rows.mapM s.book.info with
      | error _ => rfl
      | ok infos => rfl

theorem isSome_mapM_cons {α β : Type} (f : α → Option β) (a : α) (as : List α) :
    ((a :: as).mapM f).isSome ↔ (f a).isSome ∧ (as.mapM f).isSome := by
  rw [List.mapM_cons]
  cases f a with
  | none => simp
  | some b => cases as.mapM f <;> simp

theorem shows_all_iff {b : Book} {rows : List Row} :
    (∃ infos, rows.mapM b.info = .ok infos ∧ (infos.mapM renderInfo?).isSome) ↔
      ∀ row ∈ rows, b.Shows row := by
  induction rows with
  | nil => exact ⟨fun _ _ h => (nomatch h), fun _ => ⟨[], rfl, rfl⟩⟩
  | cons row rows ih =>
    rw [List.forall_mem_cons, ← ih, shows_iff]
    constructor
    · rintro ⟨_, read, some⟩
      obtain ⟨info, infos, hi, his, rfl⟩ := Except.mapM_cons_eq_ok.1 read
      obtain ⟨one, others⟩ := (isSome_mapM_cons _ _ _).1 some
      exact ⟨⟨info, hi, one⟩, infos, his, others⟩
    · rintro ⟨⟨info, hi, one⟩, infos, his, others⟩
      exact ⟨info :: infos, Except.mapM_cons_eq_ok.2 ⟨info, infos, hi, his, rfl⟩,
        (isSome_mapM_cons _ _ _).2 ⟨one, others⟩⟩

theorem failed_shownEntries {used : Nat} (num : s.book.Numbered used) (up : s.storeUp = true)
    {rows : List Row} {entries : List Entry} (there : ∀ row ∈ rows, row ∈ s.book.rows)
    (read : rows.mapM Row.entry = .ok entries) {y : Except Error Answer}
    (h : ((entries.mapM fun e => Ledger.paymentInfo (e.id.getD "")) >>= fun infos =>
      shown 201 ((infos.mapM renderInfo?).map fun list =>
        .object [("transactions", .list list)])).exec s = (y, t)) :
    Failed y ↔ ¬ ∀ row ∈ rows, s.book.Shows row := by
  rw [exec_bind, exec_mapM_paymentInfo num up there read] at h
  rw [← shows_all_iff]
  cases looked : rows.mapM s.book.info with
  | error e =>
    rw [looked] at h
    cases h
    refine ⟨fun _ => ?_, fun _ => trivial⟩
    rintro ⟨_, e, -⟩
    cases e
  | ok infos =>
    rw [looked] at h
    dsimp only at h
    cases rendered : infos.mapM renderInfo? with
    | none =>
      rw [rendered] at h
      cases h
      refine ⟨fun _ => ?_, fun _ => trivial⟩
      rintro ⟨_, e, some⟩
      cases e
      rw [rendered] at some
      cases some
    | some list =>
      rw [rendered] at h
      cases h
      refine ⟨fun h => absurd h (by decide : ¬ 400 ≤ 201), fun h => ?_⟩
      exact absurd ⟨infos, rfl, by rw [rendered]; rfl⟩ h

theorem failsAsShown_create (num : s.book.Numbered s.usedIds) {request : String} {f : CreateForm}
    {y : Except Error Answer} (h : (createEntries request f).exec s = (y, t)) :
    FailsAsShown s.book t.book y := by
  rcases ran : (Ledger.create (f.entry request)).exec s with ⟨x, u⟩
  have quiet := quiet_createEntries h
  rw [ran] at quiet
  have later := (Ledger.later_create _).of_exec ran
  rw [quiet.book]
  rcases Ledger.create_cases num ran with ⟨_, -, same⟩ | ⟨rows, created, put, used, rfl⟩
  · exact .inl same
  obtain ⟨account, policy, entries, -, -, -, -, written⟩ := created.written
  have num' : u.book.Numbered u.usedIds := by
    rw [put, used]
    exact written.numbered_addRows num
  have there : ∀ row ∈ rows, row ∈ u.book.rows := by
    intro row hr
    rw [put]
    exact List.mem_append_right _ hr
  have new : (∃ r, NewIn s.book u.book r ∧ ¬ u.book.Shows r) ↔
      ¬ ∀ row ∈ rows, u.book.Shows row := by
    constructor
    · rintro ⟨r, ⟨hr, fresh⟩, hidden⟩ all
      rw [put] at hr
      rcases List.mem_append.1 hr with hr | hr
      · exact fresh hr
      · exact hidden (all r hr)
    · intro h
      obtain ⟨r, hr⟩ := Classical.not_forall.1 h
      obtain ⟨hr, hidden⟩ := Classical.not_imp.1 hr
      refine ⟨r, ⟨there r hr, fun old => ?_⟩, hidden⟩
      obtain ⟨_, _, k, _, lt, -, kept⟩ := written.exists_of_mem hr
      exact num.ne_numbered lt r old (id_of_kept kept)
  refine .inr (Iff.trans ?_ new.symm)
  -- the rows are read when they are written, and once more to be shown
  unfold createEntries at h
  rw [exec_bind, exec_attempt, ran] at h
  dsimp only at h
  cases read : rows.mapM Row.entry with
  | error f =>
    rw [read] at h
    cases h
    refine ⟨fun _ all => ?_, fun _ => trivial⟩
    have each : ∀ row ∈ rows, ∃ e, row.entry = .ok e := by
      intro row hr
      obtain ⟨_, _, e, _, -, -, readable, -⟩ := all row hr
      exact ⟨e, readable⟩
    obtain ⟨_, e⟩ := Except.mapM_isOk.2 each
    rw [read] at e
    cases e
  | ok entries =>
    rw [read] at h
    exact failed_shownEntries num' (later.storeUp.trans created.storeUp) there read h

/-- the answer of a route fails exactly if a row that it leaves behind cannot be shown, unless
nothing changed -/
theorem failsAsShown_respond (num : s.book.Numbered s.usedIds) {request : String} {target : Target}
    {isJson : Bool} {body : Body} {route : Route} {y : Except Error Answer}
    (h : (respond request target isJson body route).exec s = (y, t)) :
    FailsAsShown s.book t.book y := by
  rcases respond_cases h with quiet | ⟨step, asked, -, -⟩
  · exact .inl quiet.book
  cases route with
  | createEntries =>
    unfold respond at h
    unfold Route.step? at asked
    cases read : body.fields isJson >>= createForm with
    | error fault => simp only [read] at asked; cases asked
    | ok f => simp only [read] at h; exact failsAsShown_create num h
  | changeEntry id =>
    unfold respond at h
    unfold Route.step? at asked
    cases read : body.fields isJson >>= updateForm with
    | error fault => simp only [read] at asked; cases asked
    | ok c => simp only [read] at h; exact failsAsShown_update num h
  | mergeEntry id => exact failsAsShown_merge h
  | dismissEntry id => exact failsAsShown_dismiss num h
  | _ => cases asked

end Http

/-! ## requests -/

/-- a step fails if it gives no result, or a response whose status says so -/
def Outcome.fails (o : Outcome) : Bool :=
  match o.result with
  | .ok (.response r) => 400 ≤ r.status
  | .ok _ => false
  | .error _ => true

theorem Outcome.fails_iff {o : Outcome} {x : Except Error Http.Response}
    (result : o.result = Reply.response <$> x) : o.fails = true ↔ Http.IsFailure x := by
  unfold fails
  rw [result]
  cases x with
  | ok response => exact decide_eq_true_iff
  | error e => exact ⟨fun _ => trivial, fun _ => rfl⟩

/-- **A request that fails has changed no row, exactly if what it changed can be shown**: where it
leaves new rows behind, it fails if and only if one of them cannot be shown. -/
theorem failed_request_changes_nothing_iff {s : Session} (h : s.Reachable) (r : Http.Request) :
    ((s.take (.serve r)).1.fails → (s.take (.serve r)).2.book.rows = s.book.rows) ↔
      (s.take (.serve r)).2.book.rows = s.book.rows ∨
        ∀ row ∈ (s.take (.serve r)).2.book.rows, row ∉ s.book.rows →
          (s.take (.serve r)).2.book.Shows row := by
  have ran := Session.take_exec s (.serve r)
  generalize (s.take (.serve r)).2 = t at ran ⊢
  obtain ⟨x, ran, result⟩ := Act.exec_map_cases ran
  have fails : (s.take (.serve r)).1.fails ↔ Http.IsFailure x := by
    unfold Outcome.fails
    rw [result]
    cases x with
    | ok response => exact decide_eq_true_iff
    | error e => exact ⟨fun _ => trivial, fun _ => rfl⟩
  rw [fails]
  by_cases same : t.book.rows = s.book.rows
  · exact ⟨fun _ => .inl same, fun _ _ => same⟩
  have changed : Http.IsFailure x ↔ ∃ row, Http.NewIn s.book t.book row ∧ ¬ t.book.Shows row := by
    rcases Http.serve_cases ran with
      quiet | ⟨route, target, id, u, v, y, -, quiet, done, quiet', fails⟩
    · exact absurd (congrArg Book.rows quiet.book) same
    have way := Session.Chain.trans (Session.quiet_emptied s) quiet
    have num : u.book.Numbered u.usedIds := by
      rw [way.book, way.usedIds]
      exact h.numbered
    rw [fails, quiet'.book, ← way.book]
    rcases Http.failsAsShown_respond num done with kept | shown
    · exact absurd (congrArg Book.rows (quiet'.book.trans (kept.trans way.book))) same
    · exact shown
  rw [changed]
  constructor
  · intro keeps
    refine .inr fun row hr new => Classical.byContradiction fun hidden => ?_
    exact same (keeps ⟨row, ⟨hr, new⟩, hidden⟩)
  · rintro (e | shown) ⟨row, ⟨hr, new⟩, hidden⟩
    · exact e
    · exact absurd (shown row hr new) hidden

/-! ## a change that cannot be shown -/

def Http.Request.rename : Request where
  method := "PATCH"
  path := "/v1/transactions/id-2"
  params := none
  headers := []
  body := .value (.object [("name", .text "Coffee")])

namespace Session

/-- the card of the purchase gets a due day that no month has -/
def withoutPolicy : Session := (firstPurchase.run [.editAccount "id-1" [.dueDay (some 99)]]).2

theorem reachable_withoutPolicy : withoutPolicy.Reachable := reachable_firstPurchase.run _

theorem rename_fails : (withoutPolicy.take (.serve .rename)).1.fails := by decide +kernel

theorem rename_changes :
    withoutPolicy.book.rows.map Row.name = ["Tea"] ∧
      (withoutPolicy.take (.serve .rename)).2.book.rows.map Row.name = ["Coffee"] := by
  decide +kernel

end Session

/-- **A request fails, and the change that it asked for stays.** -/
theorem failed_request_changes_row :
    let s := Session.withoutPolicy
    s.Reachable ∧ (s.take (.serve .rename)).1.fails ∧ s.book.rows.map Row.name = ["Tea"] ∧
      (s.take (.serve .rename)).2.book.rows.map Row.name = ["Coffee"] :=
  ⟨Session.reachable_withoutPolicy, Session.rename_fails, Session.rename_changes⟩

/-- the row with the new name is one that cannot be shown -/
theorem failed_request_changes_nothing_iff_rename :
    let s := Session.withoutPolicy
    let t := (s.take (.serve .rename)).2
    s.Reachable ∧ ∃ row ∈ t.book.rows, row ∉ s.book.rows ∧ ¬ t.book.Shows row := by
  intro s t
  have either := failed_request_changes_nothing_iff Session.reachable_withoutPolicy .rename
  refine ⟨Session.reachable_withoutPolicy, Classical.byContradiction fun none => ?_⟩
  have same := either.2 (.inr fun row hr new => Classical.byContradiction fun hidden =>
    none ⟨row, hr, new, hidden⟩) Session.rename_fails
  have names := congrArg (List.map Row.name) same
  rw [Session.rename_changes.1, Session.rename_changes.2] at names
  exact absurd names (by decide)

end Billfold
