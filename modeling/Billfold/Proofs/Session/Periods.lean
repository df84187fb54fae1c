import Mathlib.Data.List.Nodup
import Billfold.Proofs.Ledger.Group
import Billfold.Proofs.Ledger.Periods
import Billfold.Proofs.Session.CarriedOut
import Billfold.Proofs.Session.Conserve
import Billfold.Proofs.Session.Duplicate

/-!
# A plan through a run

As long as nothing is set or dropped by hand, the group of a plan is listed with those of its rows
that were not merged into others, in the order of their periods and each with the tag that it was
written with.

* `resolves_of_gone`, `gone_iff`   only merging takes a row away
* `Session.HoldsPlan`       each row of a plan has its tag or is gone, and no other names its group
* `HoldsPlan.take`          every step keeps that
* `HoldsPlan.listed`        the rows that are listed for the group
* `Session.ListsPlan`       what is told of a plan
* `plan_stays_listed`       the whole way from the request through any run
* `plan_without_calendar`   a plan that is not told though all of it can be read
-/

namespace Billfold

open Act

namespace Session

variable {s t : Session} {step : Step} {id group home : String} {e : NewEntry}
variable {rows : List Row} {r now : Row} {n : Nat}

/-! ## rows that are merged -/

/-- **A row that is not dropped by hand is gone only if it was merged**, by a step that did not
fail. -/
theorem resolves_of_gone (h : s.Reachable) (own : step.isByHand = false)
    (found : s.book.row? id = some r) (gone : (s.take step).2.book.row? id = none) :
    s.Resolves step .merge id := by
  rcases take_remade h step found with same | ⟨done, does, remade⟩
  · rw [same] at gone
    cases gone
  rw [gone] at remade
  cases remade with
  | deleted => exact absurd (does.touches rfl) (Step.not_touches own id)
  | merged merges =>
    have asked : step.resolution? = some (.merge, id) := does.resolution.symm
    refine ⟨asked, Bool.eq_false_iff.2 fun failed => ?_⟩
    rw [keeps_of_failed_merge asked failed, found] at gone
    cases gone

/-- **Over a run a row is gone exactly if a step of it merged the row.** -/
theorem gone_iff (h : s.Reachable) (there : (s.book.row? id).isSome) {steps : List Step}
    (own : ∀ next ∈ steps, next.isByHand = false) :
    (s.run steps).2.book.row? id = none ↔ ∃ before next after, steps = before ++ next :: after ∧
      (s.run before).2.Resolves next .merge id := by
  induction steps generalizing s with
  | nil =>
    refine ⟨fun gone => ?_, fun ⟨before, next, after, e, _⟩ => ?_⟩
    · rw [show s.book.row? id = none from gone] at there
      cases there
    · cases before <;> cases e
  | cons step steps ih =>
    have h' := h.take step
    obtain ⟨row, found⟩ := Option.isSome_iff_exists.1 there
    -- the first step that takes the row away is the only one that can have merged it
    cases after : (s.take step).2.book.row? id with
    | none =>
      have spent := (Spent.of_gone h found after).run h' steps
      have merged := resolves_of_gone h (own step List.mem_cons_self) found after
      exact ⟨fun _ => ⟨[], step, steps, rfl, merged⟩, fun _ => spent.gone⟩
    | some now =>
      have rest := ih h' (by rw [after]; rfl) fun next hn => own next (List.mem_cons_of_mem _ hn)
      constructor
      · intro gone
        obtain ⟨before, next, later, rfl, merged⟩ := rest.1 gone
        exact ⟨step :: before, next, later, rfl, merged⟩
      · rintro ⟨before, next, later, e, merged⟩
        cases before with
        | nil =>
          cases e
          rw [(spent_of_merged h merged).gone] at after
          cases after
        | cons first before =>
          cases e
          exact rest.2 ⟨before, next, later, rfl, merged⟩

/-! ## a plan that is left to itself -/

theorem leavesName_of_not_byHand (own : step.isByHand = false) : s.LeavesName step group := by
  intro names
  cases step with
  | editRow => cases own
  | _ => exact names.elim

/-- each row of a plan is there with the tag that it was written with, or is gone for good; no other
row names the group, and the account is there -/
structure HoldsPlan (s : Session) (group home : String) (rows : List Row) : Prop where
  each : ∀ r ∈ rows, s.Spent r.id ∨ ∃ now tag, s.book.row? r.id = some now ∧ now.account = home ∧
    tag.group = some group ∧ r.Carries tag ∧ now.Carries tag
  only : ∀ r ∈ s.book.rows, r.Names group → ∃ p ∈ rows, p.id = r.id
  used : ∃ n, n ≤ s.usedGroups ∧ group = grouped n
  account : (s.book.account? home).isSome

/-- **A plan is held through every step that sets nothing by hand.** -/
theorem HoldsPlan.take (h : s.Reachable) (plan : s.HoldsPlan group home rows)
    (own : step.isByHand = false) : (s.take step).2.HoldsPlan group home rows := by
  obtain ⟨n, le, rfl⟩ := plan.used
  refine ⟨fun r hr => ?_, only_take h (leavesName_of_not_byHand own) le plan.only,
    ⟨n, Nat.le_trans le (le_take h step).2, rfl⟩, account_take h step plan.account⟩
  rcases plan.each r hr with spent | ⟨old, tag, found, ours, named, written, carried⟩
  · exact .inl (spent.take h step)
  cases after : (s.take step).2.book.row? r.id with
  | none => exact .inl (.of_gone h found after)
  | some now =>
    obtain ⟨account, carried⟩ := carries_take h found carried (named ▸ some_grouped_ne_empty n)
      (Step.not_touches own r.id) after
    exact .inr ⟨now, tag, rfl, account.trans ours, named, written, carried⟩

theorem HoldsPlan.run (h : s.Reachable) (plan : s.HoldsPlan group home rows) {steps : List Step}
    (own : ∀ next ∈ steps, next.isByHand = false) :
    (s.run steps).2.HoldsPlan group home rows := by
  induction steps generalizing s with
  | nil => exact plan
  | cons step steps ih =>
    exact ih (h.take step) (plan.take h (own step List.mem_cons_self)) fun next hn =>
      own next (List.mem_cons_of_mem _ hn)

def stillThere (s : Session) (rows : List Row) : List Row :=
  rows.filter fun r => (s.book.row? r.id).isSome

/-- the rows of a plan as they are now -/
def periodsNow (s : Session) (rows : List Row) : List Row :=
  rows.filterMap fun r => s.book.row? r.id

theorem mem_periodsNow : now ∈ s.periodsNow rows ↔ ∃ r ∈ rows, s.book.row? r.id = some now :=
  List.mem_filterMap

theorem map_periodsNow {α : Type} {f : Row → α}
    (each : ∀ r ∈ rows, ∀ now, s.book.row? r.id = some now → f now = f r) :
    (s.periodsNow rows).map f = (s.stillThere rows).map f := by
  unfold periodsNow stillThere
  induction rows with
  | nil => rfl
  | cons r rows ih =>
    have rest := ih fun x hx => each x (List.mem_cons_of_mem _ hx)
    rw [List.filterMap_cons, List.filter_cons]
    cases found : s.book.row? r.id with
    | none => exact rest
    | some now =>
      show f now :: _ = f r :: _
      rw [each r List.mem_cons_self now found, rest]

namespace HoldsPlan

variable (plan : s.HoldsPlan group home rows)
include plan

theorem carries (hr : r ∈ rows) (found : s.book.row? r.id = some now) :
    now.account = home ∧ ∃ tag, tag.group = some group ∧ r.Carries tag ∧ now.Carries tag := by
  rcases plan.each r hr with spent | ⟨_, tag, found', ours, carried⟩
  · rw [spent.gone] at found
    cases found
  · rw [found] at found'
    cases found'
    exact ⟨ours, tag, carried⟩

theorem tag?_eq (hr : r ∈ rows) (found : s.book.row? r.id = some now) : now.tag? = r.tag? := by
  obtain ⟨-, tag, named, written, carried⟩ := plan.carries hr found
  obtain ⟨n, -, rfl⟩ := plan.used
  have given : tag.group ≠ some "" := by
    rw [named]
    exact some_grouped_ne_empty n
  rw [written.tag?_eq given, carried.tag?_eq given]

theorem period_eq (hr : r ∈ rows) (found : s.book.row? r.id = some now) :
    now.period = r.period := by
  obtain ⟨-, tag, -, written, carried⟩ := plan.carries hr found
  rw [written.period_eq, carried.period_eq]

theorem increasing (ordered : rows.Pairwise fun x y => x.period < y.period) :
    (s.periodsNow rows).Pairwise fun x y => x.period < y.period := by
  refine List.pairwise_filterMap.2 (ordered.imp_of_mem ?_)
  intro x y hx hy lt now found now' found'
  rwa [plan.period_eq hx found, plan.period_eq hy found']

theorem mem_periodsNow_iff (num : s.book.Numbered s.usedIds) :
    now ∈ s.periodsNow rows ↔ now ∈ (s.book.rowsOf home).filter (Row.isIn group) := by
  rw [mem_periodsNow, List.mem_filter]
  unfold Book.rowsOf
  rw [List.mem_filter, decide_eq_true_iff]
  constructor
  · rintro ⟨r, hr, found⟩
    obtain ⟨ours, tag, named, -, carried⟩ := plan.carries hr found
    exact ⟨⟨Book.mem_of_row? found, ours⟩, carried.isIn named⟩
  · rintro ⟨⟨there, -⟩, isIn⟩
    obtain ⟨r, hr, same⟩ := plan.only now there (Row.names_of_isIn isIn)
    exact ⟨r, hr, num.row?_eq_some.2 ⟨there, same.symm⟩⟩

/-- **The group is listed with just the rows that are there, by their periods.** -/
theorem listed (num : s.book.Numbered s.usedIds)
    (objects : ∀ r ∈ s.book.rows, ∃ fields : Fields, r.extra = .object fields)
    (ordered : rows.Pairwise fun x y => x.period < y.period) :
    s.book.groupRows home group = .ok (s.periodsNow rows) := by
  have increasing := plan.increasing ordered
  have whole (r : Row) (hr : r ∈ s.book.rowsOf home) (isIn : r.isIn group = true) :
      periodKey r.metadata = .int r.period := by
    obtain ⟨p, hp, found⟩ := mem_periodsNow.1
      ((plan.mem_periodsNow_iff num).2 (List.mem_filter.2 ⟨hr, isIn⟩))
    obtain ⟨-, tag, -, -, carried⟩ := plan.carries hp found
    exact carried.periodKey_eq
  obtain ⟨shown, listed, sorted⟩ :=
    Book.groupRows_ordered (fun r hr => objects r (List.mem_filter.1 hr).1) whole
  have order := Book.perm_groupRows listed
  -- no two of the rows have one period
  have apart : ((s.periodsNow rows).map Row.period).Nodup :=
    List.pairwise_map.2 (increasing.imp Int.ne_of_lt)
  have same : shown.Perm (s.periodsNow rows) := by
    have once : shown.Nodup := by
      refine order.nodup_iff.2 (((num.apart.filter _).filter _).imp ?_)
      rintro x _ apart rfl
      exact apart rfl
    refine (List.perm_ext_iff_of_nodup once apart.of_map).2 fun x => ?_
    rw [order.mem_iff, plan.mem_periodsNow_iff num]
  have anti : ∀ x y, x ∈ shown → y ∈ s.periodsNow rows → x.period ≤ y.period →
      y.period ≤ x.period → x = y := fun x y hx hy le le' =>
    List.inj_on_of_nodup_map apart (same.mem_iff.1 hx) hy (Int.le_antisymm le le')
  rw [listed, same.eq_of_pairwise anti sorted (increasing.imp Int.le_of_lt)]

theorem map_tag? : (s.periodsNow rows).map (fun r => (r.id, r.tag?)) =
    (s.stillThere rows).map fun r => (r.id, r.tag?) :=
  map_periodsNow fun r hr now found => by
    rw [Book.id_of_row? found, plan.tag?_eq hr found]

theorem told {account : Account} {policy : Option Policy}
    (there : s.book.account? home = some account) (valid : account.policy = .ok policy)
    (reads : ∀ r ∈ s.stillThere rows, ∃ now x due, s.book.row? r.id = some now ∧
      now.entry = .ok x ∧ shownDue policy x.charge = .ok due) :
    ∃ infos, (s.periodsNow rows).mapM s.book.info = .ok infos ∧
      infos.map (fun info => (info.entry.id, info.entry.tag)) =
        (s.stillThere rows).map fun r => (some r.id, r.tag?) := by
  have each (now : Row) (hn : now ∈ s.periodsNow rows) : ∃ info, s.book.info now = .ok info := by
    obtain ⟨r, hr, found⟩ := mem_periodsNow.1 hn
    obtain ⟨now', x, due, found', read, shown⟩ :=
      reads r (List.mem_filter.2 ⟨hr, by rw [found]; rfl⟩)
    rw [found] at found'
    cases found'
    obtain ⟨ours, -⟩ := plan.carries hr found
    exact ⟨_, Book.info_of_entry (ours ▸ there) valid read shown⟩
  obtain ⟨infos, told⟩ := Except.mapM_isOk.2 each
  refine ⟨infos, told, ?_⟩
  calc infos.map (fun info => (info.entry.id, info.entry.tag))
    _ = (s.periodsNow rows).map fun r => (some r.id, r.tag?) := by
      refine Except.map_of_mapM told fun now _ info told => ?_
      have read := Book.entry_of_info told
      rw [Row.id_of_entry read, Row.tag?_of_entry read]
    _ = (s.stillThere rows).map fun r => (some r.id, r.tag?) := by
      have both := congrArg (List.map fun p : String × Option Tag => (some p.1, p.2)) plan.map_tag?
      rwa [List.map_map, List.map_map] at both

end HoldsPlan

/-! ## what is told of it -/

/-- the rows of a plan that are left are listed for its group, and told where the account and the
rows can be read and their payment dates are days of the calendar; where none is left, the group is
not found -/
structure ListsPlan (s : Session) (home group : String) (rows : List Row) : Prop where
  listed : ∃ left, s.book.groupRows home group = .ok left ∧
    left.map (fun r => (r.id, r.tag?)) = rows.map fun r => (r.id, r.tag?)
  none : rows = [] → (s.take (.group home group)).1.result = .error (.notFound (.plan group))
  told : rows ≠ [] → ∀ account policy, s.book.account? home = some account →
    account.policy = .ok policy →
    (∀ r ∈ rows, ∃ now x due, s.book.row? r.id = some now ∧ now.entry = .ok x ∧
      shownDue policy x.charge = .ok due) →
    ∃ infos, (s.take (.group home group)).1.result = .ok (.infos infos) ∧
      infos.map (fun info => (info.entry.id, info.entry.tag)) =
        rows.map fun r => (some r.id, r.tag?)

/-- **A plan that is held is told by those of its rows that are there.** -/
theorem HoldsPlan.listsPlan (h : s.ReachableBy fun _ step => step.isByHand = false)
    (plan : s.HoldsPlan group home rows) (up : s.storeUp = true)
    (ordered : rows.Pairwise fun x y => x.period < y.period) :
    s.ListsPlan home group (s.stillThere rows) := by
  have num := h.reachable.numbered
  have objects (r : Row) (hr : r ∈ s.book.rows) : ∃ fields : Fields, r.extra = .object fields := by
    obtain ⟨fields, map, -⟩ := Row.tidy_of_reachableBy
      (h.mono fun _ step own => Step.not_touches own r.id) (num.row?_eq_some.2 ⟨hr, rfl⟩)
    exact ⟨fields, map⟩
  have listed := plan.listed num objects ordered
  obtain ⟨account, there⟩ := Option.isSome_iff_exists.1 plan.account
  have result : (s.take (.group home group)).1.result = Reply.infos <$>
      if (s.periodsNow rows).isEmpty then .error (.notFound (.plan group))
      else (s.periodsNow rows).mapM s.book.info := by
    rw [result_of_map s (.group home group) rfl]
    exact congrArg _ (Ledger.result_group (s := { s with log := [] }) up there listed)
  have empty : s.periodsNow rows = [] ↔ s.stillThere rows = [] := by
    rw [← List.map_eq_nil_iff, plan.map_tag?, List.map_eq_nil_iff]
  refine ⟨⟨_, listed, plan.map_tag?⟩, fun gone => ?_, fun left _ _ there valid reads => ?_⟩
  · rw [result, empty.2 gone]
    rfl
  · obtain ⟨infos, told, tags⟩ := plan.told there valid reads
    refine ⟨infos, ?_, tags⟩
    rw [result, if_neg, told]
    · rfl
    · rw [List.isEmpty_iff, empty]
      exact left

theorem holdsPlan_of_drafted {p : Plan} (h : s.ReachableBy fun _ step => step.isByHand = false)
    (num : t.book.Numbered t.usedIds) (drafted : Ledger.Drafted s e (some p) rows)
    (put : t.book = s.book.addRows rows) (used : s.usedGroups + 1 ≤ t.usedGroups) :
    t.HoldsPlan (nextGroup s) e.account rows := by
  have unnamed (r : Row) (hr : r ∈ s.book.rows) : ¬ r.Names (nextGroup s) := by
    have leaves : s.ReachableBy fun u step => u.LeavesName step (nextGroup s) :=
      h.mono fun _ _ own => leavesName_of_not_byHand own
    have found := h.reachable.numbered.row?_eq_some.2 ⟨hr, rfl⟩
    exact unnamed_of_reachableBy leaves (Nat.lt_succ_self _) found
  have new := hasPlan_of_drafted num drafted put unnamed used
  refine ⟨fun r hr => .inr ?_, new.only, new.used, ?_⟩
  · obtain ⟨ours, tag, named, carried⟩ := drafted.carries hr
    rw [put] at num ⊢
    exact ⟨r, tag, num.row?_of_added hr, ours, named, carried, carried⟩
  · obtain ⟨account, _, _, _, found, -⟩ := drafted.written
    rw [put]
    show (s.book.account? e.account).isSome
    rw [found]
    rfl

/-- **A plan stays listed**, period after period, with those of its rows that were not merged into
others.  After entries were created in several periods, and as long as nothing was and is set or
dropped by hand, their group is listed with just the rows that are still there, in the order of
their periods and each with the tag that it was created with; a row is gone only by a step that
merged it; and once all are gone the group is not found. -/
theorem plan_stays_listed (h : s.ReachableBy fun _ step => step.isByHand = false)
    (creates : s.Creates step e) (count : readCount s.settings.maxInstallments e.count = .ok n)
    (several : 2 ≤ n) :
    ∃ mode rows, Mode.read s.settings.defaultMode e.mode = .ok mode ∧
      (s.take step).2.book = s.book.addRows rows ∧
      rows.map Row.tag? = (List.range n).map (fun i => some ⟨nextGroup s, i + 1, n, mode⟩) ∧
      ∀ steps, (∀ next ∈ steps, next.isByHand = false) →
        let t := ((s.take step).2.run steps).2
        t.ListsPlan e.account (nextGroup s) (t.stillThere rows) ∧
          ∀ r ∈ rows, (t.book.row? r.id = none ↔
            ∃ before next after, steps = before ++ next :: after ∧
              ((s.take step).2.run before).2.Resolves next .merge r.id) := by
  obtain ⟨plan, rows, drafted, put, -, groups⟩ := creates.drafted h.reachable
  obtain ⟨p, rfl⟩ := drafted.isPlan count several
  obtain ⟨_, count', -, length, periods⟩ := drafted.periods
  rw [count] at count'
  cases count'
  have own : step.isByHand = false := by
    cases creates.asked <;> rfl
  have later := h.take step own
  have plan := holdsPlan_of_drafted h later.reachable.numbered drafted put groups
  have ordered : rows.Pairwise fun x y => x.period < y.period := by
    refine List.pairwise_iff_getElem.2 fun i j hi hj lt => ?_
    have first := (periods i _ (List.getElem?_eq_getElem hi)).tag.period_eq
    have next := (periods j _ (List.getElem?_eq_getElem hj)).tag.period_eq
    rw [first, next]
    dsimp only
    omega
  refine ⟨p.mode, rows, drafted.mode, put, ?_, fun steps owns => ⟨?_, fun r hr => ?_⟩⟩
  · refine List.ext_getElem (by rw [List.length_map, List.length_map, List.length_range, length]) ?_
    intro i hi _
    rw [List.length_map] at hi
    rw [List.getElem_map, List.getElem_map, List.getElem_range]
    exact (periods i _ (List.getElem?_eq_getElem hi)).tag.tag?_eq (some_grouped_ne_empty _)
  · have way : (s.take step).2.Leads (fun _ next => next.isByHand = false)
        ((s.take step).2.run steps).2 := leads_run _ fun next hn _ => owns next hn
    refine (plan.run later.reachable owns).listsPlan (later.leads way) ?_ ordered
    rw [storeUp_run later.reachable, storeUp_take h.reachable, drafted.storeUp]
  · refine gone_iff later.reachable ?_ owns
    have num := later.reachable.numbered
    rw [put] at num ⊢
    rw [num.row?_of_added hr]
    rfl

/-! ## a chair in two parts -/

/-- the first part of the chair turns out to be the purchase that was there, and is merged into it:
the other part is what is left of the plan -/
theorem plan_stays_listed_chair :
    let s := firstPurchase
    let steps := [suggestPurchase, .merge "id-3" none]
    let t := ((s.take (.create chair)).2.run steps).2
    s.ReachableBy (fun _ step => step.isByHand = false) ∧ s.Creates (.create chair) chair ∧
      readCount s.settings.maxInstallments chair.count = .ok 2 ∧
      (∀ next ∈ steps, next.isByHand = false) ∧
      ∃ rows, (s.take (.create chair)).2.book = s.book.addRows rows ∧
        rows.map Row.id = ["id-3", "id-4"] ∧ (t.stillThere rows).map Row.id = ["id-4"] ∧
        t.ListsPlan "id-1" "group-1" (t.stillThere rows) := by
  intro s steps t
  have reachable : s.ReachableBy fun _ step => step.isByHand = false := by
    refine (ReachableBy.fresh _ _ _ _).leads (leads_run _ ?_)
    rintro step (_ | ⟨_, _ | ⟨_, none⟩⟩) _
    · rfl
    · rfl
    · cases none
  have creates : s.Creates (.create chair) chair :=
    ⟨.itself fun _ h => (nomatch h), .inl (by decide +kernel)⟩
  have count : readCount s.settings.maxInstallments chair.count = .ok 2 := by decide +kernel
  have owns : ∀ next ∈ steps, next.isByHand = false := by decide
  obtain ⟨_, rows, -, put, -, stays⟩ := plan_stays_listed reachable creates count (Nat.le_refl 2)
  have ids : rows.map Row.id = ["id-3", "id-4"] := by
    have all : (s.take (.create chair)).2.book.rows.map Row.id = ["id-2", "id-3", "id-4"] := by
      decide +kernel
    have before : s.book.rows.map Row.id = ["id-2"] := by decide +kernel
    rw [put, show (s.book.addRows rows).rows = s.book.rows ++ rows from rfl, List.map_append,
      before] at all
    exact List.append_cancel_left all
  have left : (t.stillThere rows).map Row.id = ["id-4"] := by
    have there := List.filter_map (f := Row.id) (p := fun id => (t.book.row? id).isSome) (l := rows)
    rw [ids] at there
    refine there.symm.trans ?_
    decide +kernel
  have group : nextGroup s = "group-1" := by decide +kernel
  exact ⟨reachable, creates, count, owns, rows, put, ids, left, group ▸ (stays steps owns).1⟩

/-- a chair in two parts, bought without a card in the last November of the calendar -/
def lastChair : NewEntry := { chair with date := (Date.of? 9999 11 20).get rfl }

/-- a session with an account that is no card -/
def withSavings : Session :=
  ((Session.fresh {} .info true (.midnight ((Date.of? 2024 3 20).get rfl))).take
    (.openAccount ⟨some "Savings", some "depository", none, none, none⟩)).2

/-- the account is a card after all -/
def makeCard : Step := .editAccount "id-1" [.kind Policy.cardKind, .dueDay (some 15)]

/-- **A plan need not be told though the account and all its rows can be read**: the last part of
the chair would be paid after the calendar is over. -/
theorem plan_without_calendar :
    let s := withSavings
    let t := ((s.take (.create lastChair)).2.take makeCard).2
    s.ReachableBy (fun _ step => step.isByHand = false) ∧ makeCard.isByHand = false ∧
      (s.take (.create lastChair)).1.fails = false ∧
      (t.book.account? "id-1").map Account.policy =
        some (.ok (some ⟨some ⟨15, by decide⟩, some 0⟩)) ∧
      t.book.rows.map (fun r => (r.id, r.tag?.bind Tag.group)) =
        [("id-2", some "group-1"), ("id-3", some "group-1")] ∧
      (t.book.rows.all fun r => r.entry.isOk) = true ∧
      (t.take (.group "id-1" "group-1")).1.fails = true := by
  intro s t
  have reachable : s.ReachableBy fun _ step => step.isByHand = false :=
    (ReachableBy.fresh _ _ _ _).take _ rfl
  exact ⟨reachable, rfl, by decide +kernel, by decide +kernel, by decide +kernel,
    by decide +kernel, by decide +kernel⟩

end Session

end Billfold
