import Billfold.Proofs.Http.Respond
import Billfold.Proofs.Session.Turn

/-!
# Sessions that steps lead to

* `Session.Reachable`      a session that steps lead to from an empty book
* `Session.ReachableBy`    one that allowed steps lead to
* `Session.Leads`          sessions that allowed steps lead to from another one
* `Session.take_turn`      each step leads to a book of its kind
* `Step.anonymous`         a step without the request that the log names
* `Reachable.numbered`     the rows of every such session have numbers of their own
* `Reachable.run`          a run leads from such a session to another
* `account_take`           an account that is there stays
* `Session.firstPurchase`  one of them, with a card and one purchase
-/

namespace Billfold

def Step.anonymous : Step → Step
  | .create e => .create { e with request := none }
  | .dismiss id _ => .dismiss id none
  | .clear id _ => .clear id none
  | .merge id _ => .merge id none
  | step => step

namespace Session

open Act

inductive Reachable : Session → Prop
  | fresh (settings : Settings) (level : Level) (storeUp : Bool) (clock : Instant) :
      Reachable (.fresh settings level storeUp clock)
  | take {s : Session} (h : Reachable s) (step : Step) : Reachable (s.take step).2

/-- a session that allowed steps lead to from an empty book -/
inductive ReachableBy (allowed : Session → Step → Prop) : Session → Prop
  | fresh (settings : Settings) (level : Level) (storeUp : Bool) (clock : Instant) :
      ReachableBy allowed (.fresh settings level storeUp clock)
  | take {s : Session} (h : ReachableBy allowed s) (step : Step) (may : allowed s step) :
      ReachableBy allowed (s.take step).2

inductive Leads (allowed : Session → Step → Prop) (s : Session) : Session → Prop
  | refl : Leads allowed s s
  | take {t : Session} (h : Leads allowed s t) (step : Step) (may : allowed t step) :
      Leads allowed s (t.take step).2

variable {s t u : Session} {step : Step} {allowed : Session → Step → Prop}

theorem ReachableBy.reachable (h : s.ReachableBy allowed) : s.Reachable := by
  induction h with
  | fresh settings level storeUp clock => exact .fresh settings level storeUp clock
  | take _ step _ ih => exact ih.take step

theorem ReachableBy.mono {fewer : Session → Step → Prop} (h : s.ReachableBy fewer)
    (may : ∀ u step, fewer u step → allowed u step) : s.ReachableBy allowed := by
  induction h with
  | fresh settings level storeUp clock => exact .fresh settings level storeUp clock
  | take _ step mayFewer ih => exact ih.take step (may _ step mayFewer)

theorem Reachable.leads (h : s.Reachable) (way : s.Leads allowed t) : t.Reachable := by
  induction way with
  | refl => exact h
  | take _ step _ ih => exact ih.take step

theorem ReachableBy.leads (h : s.ReachableBy allowed) (way : s.Leads allowed t) :
    t.ReachableBy allowed := by
  induction way with
  | refl => exact h
  | take _ step may ih => exact ih.take step may

theorem Leads.head (may : allowed s step) (way : (s.take step).2.Leads allowed t) :
    s.Leads allowed t := by
  induction way with
  | refl => exact .take .refl step may
  | take _ next may' ih => exact ih.take next may'

theorem leads_run (s : Session) {steps : List Step}
    (may : ∀ step ∈ steps, ∀ u, allowed u step) : s.Leads allowed (s.run steps).2 := by
  induction steps generalizing s with
  | nil => exact .refl
  | cons step steps ih =>
    have rest := ih (s.take step).2 fun next hn => may next (List.mem_cons_of_mem _ hn)
    exact .head (may step List.mem_cons_self s) rest

theorem Reachable.run (h : s.Reachable) (steps : List Step) : (s.run steps).2.Reachable := by
  induction steps generalizing s with
  | nil => exact h
  | cons step steps ih => exact ih (h.take step)

theorem quiet_emptied (s : Session) : s.Quiet { s with log := [] } :=
  ⟨rfl, rfl, rfl, rfl, rfl, rfl, rfl, rfl⟩

theorem take_exec (s : Session) (step : Step) :
    step.act.exec { s with log := [] } = ((s.take step).1.result, (s.take step).2) := by
  unfold take
  rcases step.act.exec { s with log := [] } with ⟨result, t⟩
  rfl

theorem result_take (s : Session) (step : Step) :
    (s.take step).1.result = (step.act.exec { s with log := [] }).1 :=
  (congrArg Prod.fst (take_exec s step)).symm

theorem result_of_map {α : Type} {f : α → Reply} {act : Act α} (s : Session)
    (step : Step) (same : step.act = f <$> act) :
    (s.take step).1.result = f <$> (act.exec { s with log := [] }).1 := by
  rw [result_take, same, exec_map]

theorem Turn.of_quiet (quiet : s.Quiet t) {b : Book} {n k : Nat} (h : t.Turn step b n k) :
    s.Turn step b n k := by
  have book := quiet.book
  have used := quiet.usedIds
  have groups := quiet.usedGroups
  cases h with
  | same => rw [book, used, groups]; exact .same step
  | opened account => rw [book, used, groups]; exact .opened account
  | accountEdited account => rw [book, used, groups]; exact .accountEdited account
  | edited found made inPlace =>
    rw [book] at found ⊢
    rw [used, groups]
    exact .edited found made inPlace
  | deleted => rw [book, used, groups]; exact .deleted
  | created drafted => rw [book, used, groups]; exact .created (drafted.of_quiet quiet)
  | updated found updated =>
    rw [book] at found updated ⊢
    rw [quiet.clock] at updated
    rw [used, groups]
    exact .updated found updated
  | revised asked found revised =>
    rw [book] at found ⊢
    rw [used, groups]
    exact .revised asked found revised
  | merged found merges =>
    rw [book] at found merges ⊢
    rw [used, groups]
    exact .merged found merges

/-- the operation that a step is or, if it is a request, asks for -/
inductive Does : Step → Step → Prop
  | itself {step : Step} (own : ∀ r, step ≠ .serve r) : Does step step
  | asked {r : Http.Request} {name : String} {step : Step} (asked : r.step? name = some step) :
      Does (.serve r) step

/-- **Each step leaves the book as it was, or leads to a book of the kind of the operation it
does.**  The store is up or down as it was. -/
theorem take_turn (num : s.book.Numbered s.usedIds) (step : Step) :
    (s.take step).2.storeUp = s.storeUp ∧
      ∃ n k, n ≤ (s.take step).2.usedIds ∧ k ≤ (s.take step).2.usedGroups ∧
      (((s.take step).2.book = s.book ∧ n = s.usedIds ∧ k = s.usedGroups) ∨
        ∃ done, Does step done ∧ s.Turn done (s.take step).2.book n k) := by
  have ran := take_exec s step
  have empty := quiet_emptied s
  by_cases own : ∀ r, step ≠ .serve r
  · obtain ⟨up, n, k, le, le', turn⟩ := turn_of_act (s := { s with log := [] }) num own ran
    exact ⟨up, n, k, le, le', .inr ⟨step, .itself own, turn.of_quiet empty⟩⟩
  · -- the operation of a request runs in the session that the looking before it has left
    obtain ⟨r, hr⟩ := Classical.not_forall.1 own
    cases Classical.not_not.1 hr
    obtain ⟨x, ran, -⟩ := exec_map_cases ran
    rcases Http.serve_asks ran with quiet | ⟨name, done, u, asked, own, quiet, after⟩
    · exact ⟨quiet.storeUp, s.usedIds, s.usedGroups, Nat.le_of_eq quiet.usedIds.symm,
        Nat.le_of_eq quiet.usedGroups.symm, .inl ⟨quiet.book, rfl, rfl⟩⟩
    · have way := Chain.trans empty quiet
      have num' : u.book.Numbered u.usedIds := by
        rw [way.book, way.usedIds]
        exact num
      rcases e : done.act.exec u with ⟨y, v⟩
      rw [e] at after
      obtain ⟨up, n, k, le, le', turn⟩ := turn_of_act num' own e
      rw [after.book, after.usedIds, after.usedGroups, after.storeUp]
      exact ⟨up.trans way.storeUp, n, k, le, le', .inr ⟨done, .asked asked, turn.of_quiet way⟩⟩

/-- a step does one operation, whatever the name of its request -/
theorem Does.anonymous_eq {done other : Step} (h : Does step done) (h' : Does step other) :
    done.anonymous = other.anonymous := by
  cases h with
  | itself own =>
    cases h' with
    | itself => rfl
    | asked => exact absurd rfl (own _)
  | asked given =>
    cases h' with
    | itself own => exact absurd rfl (own _)
    | asked given' =>
      obtain ⟨route, named, given⟩ := Option.bind_eq_some_iff.1 given
      obtain ⟨_, named', given'⟩ := Option.bind_eq_some_iff.1 given'
      rw [named] at named'
      cases named'
      cases route with
      | createEntries =>
        obtain ⟨f, form, rfl⟩ := Option.map_eq_some_iff.1 given
        obtain ⟨_, form', rfl⟩ := Option.map_eq_some_iff.1 given'
        rw [form] at form'
        cases form'
        rfl
      | changeEntry id =>
        obtain ⟨changes, form, rfl⟩ := Option.map_eq_some_iff.1 given
        obtain ⟨_, form', rfl⟩ := Option.map_eq_some_iff.1 given'
        rw [form] at form'
        cases form'
        rfl
      | mergeEntry id => cases given; cases given'; rfl
      | dismissEntry id => cases given; cases given'; rfl
      | _ => cases given

/-- **The rows of a session that steps lead to have numbers of their own**, and stored times without
offset. -/
theorem Reachable.numbered (h : s.Reachable) : s.book.Numbered s.usedIds := by
  induction h with
  | fresh settings level storeUp clock => exact .empty _
  | @take s _ step ih =>
    obtain ⟨-, n, _, le, -, ⟨same, e, -⟩ | ⟨done, -, turn⟩⟩ := take_turn ih step
    · exact ih.mono (congrArg Book.rows same) (e ▸ le)
    · exact (turn.numbered ih).mono rfl le

/-- no account is ever closed -/
theorem account_take (h : s.Reachable) (step : Step) {id : String}
    (there : (s.book.account? id).isSome) : ((s.take step).2.book.account? id).isSome := by
  obtain ⟨-, _, _, -, -, ⟨same, -⟩ | ⟨done, -, turn⟩⟩ := take_turn h.numbered step
  · rw [same]
    exact there
  generalize (s.take step).2.book = after at turn
  cases turn with
  | opened account =>
    unfold Book.account? Book.addAccount
    rw [List.find?_append]
    exact Option.isSome_or.trans (Bool.or_eq_true_iff.2 (.inl there))
  | accountEdited account =>
    unfold Book.account? Book.putAccount
    have same (a : Account) : (if a.id = account.id then account else a).id = a.id := by
      split
      · next e => exact e.symm
      · rfl
    rw [List.find?_map, Option.isSome_map]
    simp only [Function.comp_def, same]
    exact there
  | _ => exact there

end Session

/-! ## one of them -/

/-- a card due on the 15th, whose statement closes five days before -/
def NewAccount.card : NewAccount := ⟨some "Card", some Policy.cardKind, none, some 15, some 5⟩

/-- a purchase with the first account, on 4 March 2024, in some periods -/
def NewEntry.purchase (name : String) (count : Int) : NewEntry where
  account := "id-1"
  name := some name
  date := (Date.of? 2024 3 4).get rfl
  amount := .value (.text "99.99")
  nature := .text "outflow"
  currency := none
  count := .int count
  mode := .null
  deferred := false
  request := none

def Session.firstPurchase : Session :=
  let now := Instant.midnight ((Date.of? 2024 3 5).get rfl)
  ((Session.fresh {} .info true now).run [.openAccount .card, .create (.purchase "Tea" 1)]).2

theorem Session.reachable_firstPurchase : firstPurchase.Reachable := (Reachable.fresh _ _ _ _).run _

end Billfold
