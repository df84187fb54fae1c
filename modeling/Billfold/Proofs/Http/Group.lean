import Billfold.Proofs.Http.Landing
import Billfold.Proofs.Ledger.Group

/-!
# What the answer about a plan tells

* `showPlan_ok`          a plan that is shown, with the sum of its amounts
* `arriving_of_showPlan` its answer arrives whole
* `serve_plan_ok`        a request for a plan is answered so, or not with success
-/

namespace Billfold.Http

open Act

variable {s t : Session} {account group : String} {r : Request} {body : Json}

theorem status_of_answerTo {e : Error} {status : Nat}
    (h : (answerTo e).exec s = (.ok (status, body), t)) : status ≠ 200 := by
  cases e with
  | refused why => cases h; decide
  | notFound what => cases h; decide
  | _ => cases h

theorem showPlan_ok (h : (showPlan account group).exec s = (.ok (200, body), t)) :
    ∃ rows infos total entries, s.book.groupRows account group = .ok rows ∧ rows ≠ [] ∧
      rows.mapM s.book.info = .ok infos ∧
      Decimal.sum (infos.map fun info => info.entry.amount) = .ok total ∧
      infos.mapM renderInfo? = some entries ∧
      body = .object [("group_id", .text group), ("total_amount", .text total.text),
        ("transactions", .list entries)] := by
  unfold showPlan at h
  rcases asked : (Ledger.group account group).exec s with ⟨x, u⟩
  rw [exec_bind, exec_attempt, asked] at h
  dsimp only at h
  cases x with
  | error e => exact absurd rfl (status_of_answerTo h)
  | ok infos =>
    obtain ⟨rows, listed, some, told⟩ := Ledger.group_ok asked
    obtain ⟨total, _, summed, run⟩ := exec_bind_ok h
    obtain ⟨sum, rfl⟩ := exec_ofFault_ok summed
    unfold shown renderGroup? at run
    cases rendered : infos.mapM renderInfo? with
    | none =>
      rw [rendered] at run
      cases run
    | some entries =>
      rw [rendered] at run
      cases run
      exact ⟨rows, infos, total, entries, listed, some, told, sum, rendered, rfl⟩

/-! ## requests for a plan -/

theorem place_metrics : ((Reference.parse? "/metrics".toList).map fun reference =>
    Place.ofPath? (Target.pathOf reference.place)) = some (some .metrics) := by decide +kernel

theorem target_of_metrics {target : Target} (path : r.path = "/metrics")
    (h : r.target? = some target) : Place.ofPath? target.path = some .metrics := by
  obtain ⟨reference, parsed, placed⟩ := Option.map_eq_some_iff.1 place_metrics
  have there : redirect? (.of reference r.params) = none := by
    have placed : Place.ofPath? (Target.of reference r.params).path = some .metrics := placed
    unfold redirect?
    rw [placed]
  unfold Request.target? at h
  rw [path, parsed] at h
  change (if _ then landing? maxHops (.of reference r.params) else none) = some target at h
  split at h
  · unfold landing? maxHops at h
    simp only [there] at h
    cases h
    exact placed
  · cases h

theorem route_showPlan (h : r.route? = some (.showPlan account group)) :
    Text.toCapitals r.method = "GET" ∧ r.path ≠ "/metrics" := by
  unfold Request.route? at h
  obtain ⟨target, found, h⟩ := Option.bind_eq_some_iff.1 h
  obtain ⟨place, placed, routed⟩ := Option.bind_eq_some_iff.1 h
  have here : place = .plan account group ∧ Text.toCapitals r.method = "GET" := by
    unfold routeOf? at routed
    cases place with
    | plan account' group' =>
      dsimp only at routed
      split at routed
      · next get => cases routed; exact ⟨rfl, get⟩
      · cases routed
    | entry id =>
      dsimp only at routed
      split at routed
      · cases routed
      · split at routed <;> cases routed
    | _ =>
      dsimp only at routed
      split at routed <;> cases routed
  refine ⟨here.2, fun path => ?_⟩
  rw [target_of_metrics path found, here.1] at placed
  cases placed

theorem arriving_of_showPlan (h : r.route? = some (.showPlan account group)) (body : Json) :
    { r with method := Text.toCapitals r.method }.arriving body = body := by
  obtain ⟨method, path⟩ := route_showPlan h
  unfold Request.arriving
  dsimp only
  rw [if_neg path, method, if_neg (by decide)]

/-- **A request for a plan that is answered with success** tells its rows and the sum of their
amounts. -/
theorem serve_plan_ok {response : Response} (named : r.route? = some (.showPlan account group))
    (h : (serve r).exec s = (.ok response, t)) (good : response.status = 200) :
    ∃ rows infos total entries, s.book.groupRows account group = .ok rows ∧ rows ≠ [] ∧
      rows.mapM s.book.info = .ok infos ∧
      Decimal.sum (infos.map fun info => info.entry.amount) = .ok total ∧
      infos.mapM renderInfo? = some entries ∧
      response.body = .object [("group_id", .text group), ("total_amount", .text total.text),
        ("transactions", .list entries)] := by
  rcases serve_answers h with
    ⟨-, failed⟩ | ⟨route, target, id, u, v, answer, named', quiet, ran, -, e⟩
  · have : 400 ≤ response.status := failed
    omega
  rw [named] at named'
  cases named'
  cases e
  cases answer with
  | error e => cases good
  | ok answer =>
    obtain ⟨status, body⟩ := answer
    change status = 200 at good
    subst good
    have shown := showPlan_ok ran
    rw [quiet.book] at shown
    obtain ⟨rows, infos, total, entries, listed, some, told, sum, rendered, rfl⟩ := shown
    refine ⟨rows, infos, total, entries, listed, some, told, sum, rendered, ?_⟩
    exact arriving_of_showPlan named _

end Billfold.Http
