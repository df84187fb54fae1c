import Mathlib.Algebra.BigOperators.Group.List.Basic
import Mathlib.Algebra.Group.Int.Defs
import Mathlib.Data.List.Perm.Basic
import Billfold.Proofs.Http.Group
import Billfold.Proofs.Plan.Divide
import Billfold.Proofs.Session.Group

/-!
# The money of a divided plan

An amount of whole cents is all in the rows that are written for it, and as long as these are left
alone and no other row is given their group, the group is shown with just that amount.

* `NewEntry.Divides`        a request for whole cents, cut into parts
* `Drafted.amounts`         the rows that it leads to
* `Session.HasPlan`         the rows of a plan are there, and no other row names its group
* `HasPlan.take`            a step that leaves them alone keeps that
* `HasPlan.perm_ids`, `HasPlan.perm_amounts`   what is told of the group are these rows
* `divided_plan_conserves`  the whole way from the request to the answer
* `divided_plan_joined`     another row that is given the group by hand is summed up with it
-/

namespace Billfold

-- powers and zero are those of the core library, whatever is imported beside this module
attribute [local instance (2000)] instPowNat Zero.ofOfNat0

/-! ## the rows of a new plan -/

/-- what is asked for is a whole number of cents below ten trillion, in either direction, cut into
`n` parts -/
structure NewEntry.Divides (settings : Settings) (direction : Nature) (c : Int) (n : Nat)
    (e : NewEntry) : Prop where
  amount : ∃ x, e.amount.read = .ok x ∧ x.IsCents c
  small : c.natAbs < 10 ^ (15 : Nat)
  nature : Nature.of? e.nature = some direction
  count : readCount settings.maxInstallments e.count = .ok n
  several : 2 ≤ n
  mode : Mode.read settings.defaultMode e.mode = .ok .divide

section
variable {s : Session} {e : NewEntry} {direction : Nature} {c : Int} {n : Nat}
variable {plan : Option Plan} {rows : List Row}

/-- **The rows of a divided plan have the parts of its amount.** -/
theorem Ledger.Drafted.amounts (h : Drafted s e plan rows)
    (divides : e.Divides s.settings direction c n) :
    (∃ p, plan = some p) ∧
      rows.map Row.amount = (signedParts (direction.cents c) n).map .ofCents := by
  obtain ⟨account, policy, amount, m, -, -, signed, count, planned, written⟩ := h.written
  obtain ⟨x, read, cents⟩ := divides.amount
  rw [divides.count] at count
  cases count
  have several := divides.several
  cases planned with
  | single one => omega
  | @several p more made =>
    refine ⟨⟨p, rfl⟩, ?_⟩
    have isCents := Amount.isCents_of_signed read cents divides.small divides.nature signed
    have small : (direction.cents c).natAbs < 10 ^ (15 : Nat) := by
      rw [Nature.natAbs_cents]
      exact divides.small
    have pos : 0 < n := by omega
    have lines := Plan.amounts_of_divide isCents small pos divides.mode made
    have kept : (rows.map fun r => some r.amount) =
        (signedParts (direction.cents c) n).map fun a => some (.ofCents a) := by
      calc (rows.map fun r => some r.amount)
        _ = (p.lines.map Line.amount).map settle? := by
          rw [written.amounts, List.map_map]
          exact List.map_map
        _ = (signedParts (direction.cents c) n).map fun a => some (.ofCents a) := by
          rw [lines, List.map_map]
          unfold signedParts
          rw [List.map_map]
          exact List.map_congr_left fun k hk => settle?_part pos small hk
    have inj : ∀ x y : Decimal, some x = some y → x = y := fun _ _ => Option.some.inj
    refine (List.map_inj_right inj).1 ?_
    rw [List.map_map, List.map_map]
    exact kept

theorem toCents_part {x : Decimal} (pos : 0 < n) (small : c.natAbs < 10 ^ (15 : Nat))
    (h : x ∈ (signedParts c n).map Decimal.ofCents) : x.toCents = .ok x := by
  obtain ⟨a, ha, rfl⟩ := List.mem_map.1 h
  have le := natAbs_le_of_mem_signedParts pos ha
  exact Decimal.toCents_ofCents (digitCount_le (by decide) (by omega))

/-- **The amounts of a plan add up to its own**, in whatever order they are told. -/
theorem total_of_parts {b : Book} {shown : List Row} {infos : List Info} {total : Decimal}
    (pos : 0 < n) (small : c.natAbs < 10 ^ (15 : Nat))
    (parts : (shown.map Row.amount).Perm ((signedParts c n).map .ofCents))
    (told : shown.mapM b.info = .ok infos)
    (sum : Decimal.sum (infos.map fun info => info.entry.amount) = .ok total) :
    total = .ofCents c := by
  have same : (infos.map fun info => info.entry.amount) = shown.map Row.amount := by
    refine Except.map_of_mapM told fun r hr info told => ?_
    have part := parts.mem_iff.1 (List.mem_map_of_mem hr)
    exact Except.ok.inj ((Book.amount_of_info told).symm.trans (toCents_part pos small part))
  obtain ⟨cs, amounts, order⟩ :=
    (congrFun₂ (List.eq_map_comp_perm Decimal.ofCents) _ _).mpr parts
  have some : cs ≠ [] := by
    rintro rfl
    have length := order.length_eq
    rw [length_signedParts, List.length_nil] at length
    omega
  have magnitudes : (cs.map Int.natAbs).sum = c.natAbs := by
    rw [(order.map Int.natAbs).sum_nat, sum_natAbs_signedParts pos]
  have whole : cs.sum = c := by
    rw [order.sum_eq, sum_signedParts pos]
  rw [same, amounts, Decimal.sum_ofCents some (by omega), whole] at sum
  exact (Except.ok.inj sum).symm

end

/-! ## a plan that is left alone -/

namespace Session

open Act

variable {s t : Session} {step : Step} {id group home : String} {rows : List Row} {r old : Row}

/-- a step neither sets a row by hand nor drops it, and keeps its amount: one that is to set it or
drop it by hand changes nothing -/
structure Spares (s : Session) (step : Step) (id : String) : Prop where
  byHand : step.Touches id → (s.take step).2.book = s.book
  stays : ((s.take step).2.book.row? id).map Row.amount = (s.book.row? id).map Row.amount

/-- the rows of a plan are there, with the amounts that they were written with, and no other row
names its group -/
structure HasPlan (s : Session) (group home : String) (rows : List Row) : Prop where
  kept : ∀ r ∈ rows, ∃ now tag, s.book.row? r.id = some now ∧ now.amount = r.amount ∧
    now.account = home ∧ tag.group = some group ∧ now.Carries tag
  only : ∀ r ∈ s.book.rows, r.Names group → ∃ p ∈ rows, p.id = r.id
  apart : (rows.map Row.id).Nodup
  used : ∃ n, n ≤ s.usedGroups ∧ group = grouped n

/-- **A plan stays as it is** as long as its rows are left alone and its group is not given to
another row by hand. -/
theorem HasPlan.take (h : s.Reachable) (plan : s.HasPlan group home rows)
    (leaves : s.LeavesName step group) (spares : ∀ r ∈ rows, s.Spares step r.id) :
    (s.take step).2.HasPlan group home rows := by
  obtain ⟨n, le, rfl⟩ := plan.used
  refine ⟨fun r hr => ?_, only_take h leaves le plan.only, plan.apart, n, ?_, rfl⟩
  · obtain ⟨now, tag, found, amount, ours, named, carried⟩ := plan.kept r hr
    obtain ⟨byHand, stays⟩ := spares r hr
    -- a step that sets the row by hand may only be one that fails
    by_cases touched : step.Touches r.id
    · rw [byHand touched]
      exact ⟨now, tag, found, amount, ours, named, carried⟩
    · rw [found] at stays
      obtain ⟨next, there, amount'⟩ := Option.map_eq_some_iff.1 stays
      obtain ⟨account, carried⟩ :=
        carries_take h found carried (named ▸ some_grouped_ne_empty n) touched there
      exact ⟨next, tag, there, amount'.trans amount, account.trans ours, named, carried⟩
  · exact Nat.le_trans le (le_take h step).2

theorem HasPlan.leads {allowed : Session → Step → Prop} (h : s.Reachable)
    (plan : s.HasPlan group home rows)
    (alone : ∀ u step, allowed u step →
      u.LeavesName step group ∧ ∀ r ∈ rows, u.Spares step r.id)
    (way : s.Leads allowed t) : t.HasPlan group home rows := by
  induction way with
  | refl => exact plan
  | take way step may ih =>
    obtain ⟨leaves, spares⟩ := alone _ step may
    exact ih.take (h.leads way) leaves spares

theorem hasPlan_of_drafted {e : NewEntry} {p : Plan} (num : t.book.Numbered t.usedIds)
    (drafted : Ledger.Drafted s e (some p) rows) (put : t.book = s.book.addRows rows)
    (unnamed : ∀ r ∈ s.book.rows, ¬ r.Names (nextGroup s))
    (used : s.usedGroups + 1 ≤ t.usedGroups) :
    t.HasPlan (nextGroup s) e.account rows := by
  rw [put] at num
  refine ⟨fun r hr => ?_, fun r hr names => ?_, ?_, s.usedGroups + 1, used, rfl⟩
  · obtain ⟨ours, tag, named, carried⟩ := drafted.carries hr
    exact ⟨r, tag, put ▸ num.row?_of_added hr, rfl, ours, named, carried⟩
  · rw [put] at hr
    rcases Book.mem_addRows.1 hr with old | new
    · exact absurd names (unnamed r old)
    · exact ⟨r, new, rfl⟩
  · exact List.pairwise_map.2 (List.pairwise_append.1 num.apart).2.1

/-! ## what is told of it -/

section
variable {place : String} {shown : List Row}

theorem HasPlan.id_of_shown (plan : s.HasPlan group home rows)
    (listed : s.book.groupRows place group = .ok shown) (hr : r ∈ shown) :
    r.id ∈ rows.map Row.id := by
  obtain ⟨⟨there, -⟩, isIn⟩ := (Book.mem_groupRows listed r).1 hr
  obtain ⟨p, hp, same⟩ := plan.only r there (Row.names_of_isIn isIn)
  exact same ▸ List.mem_map_of_mem hp

theorem HasPlan.place_eq (plan : s.HasPlan group home rows) (num : s.book.Numbered s.usedIds)
    (listed : s.book.groupRows place group = .ok shown) (given : shown ≠ []) : place = home := by
  obtain ⟨r, hr⟩ := List.exists_mem_of_ne_nil shown given
  obtain ⟨p, hp, id⟩ := List.mem_map.1 (plan.id_of_shown listed hr)
  obtain ⟨now, -, found, -, mine, -⟩ := plan.kept p hp
  obtain ⟨⟨there, here⟩, -⟩ := (Book.mem_groupRows listed r).1 hr
  rw [id, num.row?_eq_some.2 ⟨there, rfl⟩] at found
  cases found
  exact here.symm.trans mine

/-- **The rows that are told of the group are those of the plan**, in some order. -/
theorem HasPlan.perm_ids (plan : s.HasPlan group home rows) (num : s.book.Numbered s.usedIds)
    (listed : s.book.groupRows place group = .ok shown) (given : shown ≠ []) :
    (shown.map Row.id).Perm (rows.map Row.id) := by
  have once : (shown.map Row.id).Nodup := by
    refine ((Book.perm_groupRows listed).map Row.id).nodup_iff.2 (List.pairwise_map.2 ?_)
    exact (num.apart.filter _).filter _
  have same := plan.place_eq num listed given
  refine (List.perm_ext_iff_of_nodup once plan.apart).2 fun id => ⟨fun h => ?_, fun h => ?_⟩
  · obtain ⟨r, hr, rfl⟩ := List.mem_map.1 h
    exact plan.id_of_shown listed hr
  · obtain ⟨p, hp, rfl⟩ := List.mem_map.1 h
    obtain ⟨now, tag, found, -, mine, named, carried⟩ := plan.kept p hp
    obtain ⟨there, id⟩ := num.row?_eq_some.1 found
    have told : now ∈ shown :=
      (Book.mem_groupRows listed now).2 ⟨⟨there, mine.trans same.symm⟩, carried.isIn named⟩
    exact id ▸ List.mem_map_of_mem told

/-- **They are told with the amounts that they were written with.** -/
theorem HasPlan.perm_amounts (plan : s.HasPlan group home rows)
    (num : s.book.Numbered s.usedIds) (listed : s.book.groupRows place group = .ok shown)
    (given : shown ≠ []) : (shown.map Row.amount).Perm (rows.map Row.amount) := by
  -- an amount is told by the id of its row
  let amountAt (id : String) : Decimal := ((s.book.row? id).map Row.amount).getD .zero
  have told : shown.map Row.amount = (shown.map Row.id).map amountAt := by
    rw [List.map_map]
    refine List.map_congr_left fun r hr => ?_
    have there := ((Book.mem_groupRows listed r).1 hr).1.1
    show r.amount = ((s.book.row? r.id).map Row.amount).getD .zero
    rw [num.row?_eq_some.2 ⟨there, rfl⟩]
    rfl
  have written : rows.map Row.amount = (rows.map Row.id).map amountAt := by
    rw [List.map_map]
    refine List.map_congr_left fun r hr => ?_
    obtain ⟨now, -, found, amount, -⟩ := plan.kept r hr
    show r.amount = ((s.book.row? r.id).map Row.amount).getD .zero
    rw [found, ← amount]
    rfl
  rw [told, written]
  exact (plan.perm_ids num listed given).map amountAt

end

/-- **A group is answered with the amount of its plan**, whoever asks and however often the other
rows have changed. -/
theorem HasPlan.answer {c : Int} {n : Nat} {r : Http.Request} {place : String}
    {response : Http.Response} (plan : s.HasPlan group home rows) (h : s.Reachable)
    (pos : 0 < n) (small : c.natAbs < 10 ^ (15 : Nat))
    (amounts : rows.map Row.amount = (signedParts c n).map .ofCents)
    (named : r.route? = some (.showPlan place group))
    (told : (s.take (.serve r)).1.result = .ok (.response response))
    (good : response.status = 200) :
    ∃ entries, response.body = .object [("group_id", .text group),
      ("total_amount", .text (Decimal.ofCents c).text), ("transactions", .list entries)] := by
  rw [result_of_map s (.serve r) rfl] at told
  rcases ran : (Http.serve r).exec { s with log := [] } with ⟨x, u⟩
  rw [ran] at told
  obtain ⟨_, rfl, e⟩ := Except.map_eq_ok.1 told
  cases e
  obtain ⟨shown, infos, total, entries, listed, given, infos_eq, sum, -, body⟩ :=
    Http.serve_plan_ok named ran good
  have parts := plan.perm_amounts h.numbered listed given
  rw [amounts] at parts
  rw [total_of_parts pos small parts infos_eq sum] at body
  exact ⟨entries, body⟩

/-! ## from the request to the answer -/

/-- **No cent of a divided amount is lost or added.**  Whole cents below ten trillion are written as
`n` rows of one group, each with its part of the signed amount: the parts add up to it, each is zero
or has its sign, and no two are more than a cent apart.  They are read as they were written, in
whatever book they are put.  If the name of their group was and is given to no row by hand, and as
long as no row of the plan is set by hand, dropped or given another amount, whatever is answered
about the group with success has the signed amount as its total. -/
theorem divided_plan_conserves {e : NewEntry} {direction : Nature} {c : Int} {n : Nat}
    {es : List Entry} (h : s.Reachable) (divides : e.Divides s.settings direction c n)
    (done : (s.take (.create e)).1.result = .ok (.entries es)) :
    ∃ (rows : List Row) (parts : List Int),
      (s.take (.create e)).2.book = s.book.addRows rows ∧ rows.length = n ∧
      (∀ r ∈ rows, r.account = e.account ∧ ∃ tag, tag.group = some (nextGroup s) ∧ r.Carries tag) ∧
      rows.map Row.amount = parts.map .ofCents ∧ es.map Entry.amount = parts.map .ofCents ∧
      parts.sum = direction.cents c ∧
      (∀ a ∈ parts, a = 0 ∨ a.sign = (direction.cents c).sign) ∧
      (∀ a ∈ parts, ∀ b ∈ parts, a - b ≤ 1) ∧
      (s.ReachableBy (fun u step => u.LeavesName step (nextGroup s)) →
        ∀ t, (s.take (.create e)).2.Leads (fun u step =>
            u.LeavesName step (nextGroup s) ∧ ∀ r ∈ rows, u.Spares step r.id) t →
          ∀ r place response, r.route? = some (.showPlan place (nextGroup s)) →
            (t.take (.serve r)).1.result = .ok (.response response) → response.status = 200 →
            ∃ entries, response.body = .object [("group_id", .text (nextGroup s)),
              ("total_amount", .text (Decimal.ofCents (direction.cents c)).text),
              ("transactions", .list entries)]) := by
  obtain ⟨plan, rows, drafted, put, groups, read⟩ := drafted_of_entries h done
  have pos : 0 < n := by
    have := divides.several
    omega
  have small : (direction.cents c).natAbs < 10 ^ (15 : Nat) := by
    rw [Nature.natAbs_cents]
    exact divides.small
  obtain ⟨⟨p, rfl⟩, amounts⟩ := drafted.amounts divides
  have entries : es.map Entry.amount = (signedParts (direction.cents c) n).map .ofCents := by
    rw [← amounts]
    refine Except.map_of_mapM read fun r hr entry told => ?_
    obtain ⟨_, reads⟩ := Row.reads_of_entry told
    have part : r.amount ∈ (signedParts (direction.cents c) n).map Decimal.ofCents := by
      rw [← amounts]
      exact List.mem_map_of_mem hr
    exact Except.ok.inj (reads.amount.symm.trans (toCents_part pos small part))
  have length : rows.length = n := by
    have length := congrArg List.length amounts
    rwa [List.length_map, List.length_map, length_signedParts] at length
  refine ⟨rows, signedParts (direction.cents c) n, put, length, fun r hr => drafted.carries hr,
    amounts, entries, sum_signedParts pos, fun a ha => sign_of_mem_signedParts pos ha,
    fun a ha b hb => near_of_mem_signedParts ha hb, ?_⟩
  -- a name that was never given by hand is nobody's when the plan gets it
  intro leaves t way r place response named told good
  have after := h.take (.create e)
  have unnamed : ∀ r ∈ s.book.rows, ¬ r.Names (nextGroup s) := fun r hr =>
    unnamed_of_reachableBy leaves (Nat.lt_succ_self _) (h.numbered.row?_eq_some.2 ⟨hr, rfl⟩)
  have there := hasPlan_of_drafted after.numbered drafted put unnamed groups
  have stays := there.leads after (fun _ _ may => may) way
  exact stays.answer (after.leads way) pos small amounts named told good

/-! ## a chair in two parts -/

theorem spares_of_amounts (untouched : ¬ step.Touches id)
    (same : (s.take step).2.book.rows.map (fun r => (r.id, r.amount)) =
      s.book.rows.map fun r => (r.id, r.amount)) : s.Spares step id := by
  have told (b : Book) : (b.row? id).map Row.amount =
      ((b.rows.map fun r => (r.id, r.amount)).find? fun p => p.1 = id).map Prod.snd := by
    unfold Book.row?
    rw [List.find?_map, Option.map_map]
    rfl
  exact ⟨fun touched => absurd touched untouched, by rw [told, told, same]⟩

/-- a chair for 99.99, in two parts -/
def chair : NewEntry := .purchase "Chair" 2

theorem chair_divides : chair.Divides firstPurchase.settings .outflow 9999 2 where
  amount := ⟨.finite false 9999 (-2), by decide +kernel, by decide +kernel, by decide +kernel⟩
  small := by decide
  nature := rfl
  count := by decide +kernel
  several := Nat.le_refl 2
  mode := by decide +kernel

def withChair : Session := (firstPurchase.take (.create chair)).2

def askChair : Http.Request where
  method := "GET"
  path := "/v1/accounts/id-1/installments/group-1"
  params := none
  headers := []
  body := .absent

theorem route_askChair :
    askChair.route? = some (.showPlan "id-1" (nextGroup firstPurchase)) := by decide +kernel

def createdIds (o : Outcome) : Option (List (Option String)) :=
  match o.result with
  | .ok (.entries es) => some (es.map Entry.id)
  | _ => none

def shownTotal (o : Outcome) : Option String :=
  match o.result with
  | .ok (.response ⟨200, _, .object fields⟩) =>
    match Fields.get? "total_amount" fields with
    | some (.text total) => some total
    | _ => none
  | _ => none

theorem chair_created :
    createdIds (firstPurchase.take (.create chair)).1 = some [some "id-3", some "id-4"] := by
  decide +kernel

/-- a part of the chair is suggested to be the purchase -/
def suggestPurchase : Step := .attach "id-3" ⟨"id-2", .null, .medium, none, false, []⟩

/-- the chair is shown with its price, with a suggestion for one of its parts -/
theorem divided_plan_conserves_chair :
    let s := firstPurchase
    let t := (withChair.take suggestPurchase).2
    s.ReachableBy (fun u step => u.LeavesName step (nextGroup s)) ∧
      chair.Divides s.settings .outflow 9999 2 ∧
      (∃ es, (s.take (.create chair)).1.result = .ok (.entries es)) ∧
      ∃ response entries, (t.take (.serve askChair)).1.result = .ok (.response response) ∧
        response.status = 200 ∧ response.body = .object [("group_id", .text "group-1"),
          ("total_amount", .text "99.99"), ("transactions", .list entries)] := by
  intro s t
  have reachable : s.ReachableBy fun u step => u.LeavesName step (nextGroup s) := by
    refine (ReachableBy.fresh _ _ _ _).leads (leads_run _ ?_)
    rintro step (_ | ⟨_, _ | ⟨_, none⟩⟩) u
    · exact False.elim
    · exact False.elim
    · cases none
  have done : ∃ es, (s.take (.create chair)).1.result = .ok (.entries es) := by
    have created := chair_created
    unfold createdIds at created
    split at created
    · next es done => exact ⟨es, done⟩
    · cases created
  have shown : shownTotal (t.take (.serve askChair)).1 = some "99.99" := by decide +kernel
  have answered : ∃ response, (t.take (.serve askChair)).1.result = .ok (.response response) ∧
      response.status = 200 := by
    unfold shownTotal at shown
    split at shown
    · next told => exact ⟨_, told, rfl⟩
    · cases shown
  have same : (withChair.take suggestPurchase).2.book.rows.map (fun r => (r.id, r.amount)) =
      withChair.book.rows.map fun r => (r.id, r.amount) := by decide +kernel
  obtain ⟨es, done⟩ := done
  obtain ⟨response, told, good⟩ := answered
  obtain ⟨rows, parts, -, -, -, -, -, -, -, -, answers⟩ :=
    divided_plan_conserves reachable.reachable chair_divides done
  obtain ⟨entries, body⟩ := answers reachable t
    (.take .refl suggestPurchase ⟨False.elim, fun r _ => spares_of_amounts not_false same⟩)
    askChair "id-1" response route_askChair told good
  have price : (Decimal.ofCents (Nature.outflow.cents 9999)).text = "99.99" := by decide +kernel
  have group : nextGroup s = "group-1" := by decide +kernel
  rw [price, group] at body
  exact ⟨reachable, chair_divides, ⟨es, done⟩, response, entries, told, good, body⟩

/-- the purchase is given the group of the chair by hand -/
def joinChair : Step := .editRow "id-2" [.extra (.object [(Tag.groupKey, .text "group-1")])]

/-- **Another row that is given the group by hand is summed up with it**, though the rows of the
plan are left alone. -/
theorem divided_plan_joined :
    let s := firstPurchase
    let t := (withChair.take joinChair).2
    s.Reachable ∧ chair.Divides s.settings .outflow 9999 2 ∧
      createdIds (s.take (.create chair)).1 = some [some "id-3", some "id-4"] ∧
      withChair.Spares joinChair "id-3" ∧ withChair.Spares joinChair "id-4" ∧
      askChair.route? = some (.showPlan "id-1" (nextGroup s)) ∧
      shownTotal (t.take (.serve askChair)).1 = some "199.98" ∧
      (Decimal.ofCents (Nature.outflow.cents 9999)).text = "99.99" := by
  have same : (withChair.take joinChair).2.book.rows.map (fun r => (r.id, r.amount)) =
      withChair.book.rows.map fun r => (r.id, r.amount) := by decide +kernel
  have other : ¬ joinChair.Touches "id-3" := (by decide : "id-2" ≠ "id-3")
  have other' : ¬ joinChair.Touches "id-4" := (by decide : "id-2" ≠ "id-4")
  exact ⟨reachable_firstPurchase, chair_divides, chair_created, spares_of_amounts other same,
    spares_of_amounts other' same, route_askChair, by decide +kernel, by decide +kernel⟩

end Session

end Billfold
