import Billfold.Proofs.Http.Landing
import Billfold.Proofs.Ledger.Create
import Billfold.Proofs.Ledger.Upkeep
import Billfold.Step

/-!
# What a route does to the book

Four routes ask for an operation of the ledger; it runs as a step of its own would, and all that the
route does before and after it is to look and to count.

* `Route.step?`     the operation that a route asks for
* `respond_cases`   a route changes the book as that operation does, or not at all
* `Request.step?`   the operation that a request asks for under a name
* `step?_cases`     the four kinds of operations that there are
* `serve_asks`      a request changes the book as that operation does, or not at all
-/

namespace Billfold.Http

open Act

def Route.step? (request : String) (isJson : Bool) (body : Body) : Route → Option Step
  | .createEntries =>
    (body.fields isJson >>= createForm).toOption.map fun f => .create (f.entry request)
  | .changeEntry id =>
    (body.fields isJson >>= updateForm).toOption.map fun changes => .update id changes
  | .mergeEntry id => some (.merge id (some request))
  | .dismissEntry id => some (.dismiss id (some request))
  | _ => none

/-- the operation that a request asks for, if it asks for one; the log knows it by `name` -/
def Request.step? (r : Request) (name : String) : Option Step :=
  r.route? >>= Route.step? name r.isJson r.body

theorem Request.step?_cases {r : Request} {name : String} {step : Step}
    (h : r.step? name = some step) :
    (∃ e, step = .create e) ∨ (∃ id changes, step = .update id changes) ∨
      (∃ id, step = .merge id (some name)) ∨ ∃ id, step = .dismiss id (some name) := by
  unfold step? at h
  obtain ⟨route, -, h⟩ := Option.bind_eq_some_iff.1 h
  cases route with
  | createEntries =>
    obtain ⟨f, -, rfl⟩ := Option.map_eq_some_iff.1 h
    exact .inl ⟨_, rfl⟩
  | changeEntry id =>
    obtain ⟨changes, -, rfl⟩ := Option.map_eq_some_iff.1 h
    exact .inr (.inl ⟨id, changes, rfl⟩)
  | mergeEntry id =>
    cases h
    exact .inr (.inr (.inl ⟨id, rfl⟩))
  | dismissEntry id =>
    cases h
    exact .inr (.inr (.inr ⟨id, rfl⟩))
  | _ => cases h

variable {s t : Session}

/-! ## looking -/

theorem quiet_answerTo (e : Error) : Within Session.Quiet (answerTo e) := by
  unfold answerTo
  split
  · exact within_pure _
  · exact within_pure _
  · exact within_fail _

theorem quiet_shown (status : Nat) (body : Option Json) :
    Within Session.Quiet (shown status body) := by
  unfold shown
  split
  · exact within_pure _
  · exact within_fail _

theorem quiet_formAnswer (fault : FormFault) : Within Session.Quiet (formAnswer fault) := by
  unfold formAnswer
  split
  · split
    · exact within_pure _
    · exact within_fail _
  · exact within_pure _

theorem quiet_health : Within Session.Quiet health := within_bind within_get fun _ => within_pure _

theorem quiet_showEntry (id : String) : Within Session.Quiet (showEntry id) := by
  refine within_bind (within_attempt (Ledger.within_paymentInfo id)) fun found => ?_
  split
  · exact quiet_shown _ _
  · exact quiet_answerTo _

theorem quiet_showCycle (account : String) (target : Target) :
    Within Session.Quiet (showCycle account target) := by
  refine within_bind within_get fun u => ?_
  split
  · exact quiet_formAnswer _
  · refine within_bind (within_attempt (Ledger.within_billingCycle _ _)) fun found => ?_
    split
    · exact within_pure _
    · exact quiet_answerTo _

theorem quiet_showPlan (account group : String) :
    Within Session.Quiet (showPlan account group) := by
  refine within_bind (within_attempt (Ledger.within_group _ _)) fun found => ?_
  split
  · exact within_bind (within_ofFault _) fun _ => quiet_shown _ _
  · exact quiet_answerTo _

/-! ## asking -/

theorem quiet_after_attempt {α β : Type} {act : Act α} {next : Except Error α → Act β}
    (h : ∀ x, Within Session.Quiet (next x)) {y : Except Error β}
    (ran : (attempt act >>= next).exec s = (y, t)) : (act.exec s).2.Quiet t := by
  rw [exec_bind, exec_attempt] at ran
  exact (h _).of_exec ran

theorem quiet_showAfter {id : String} {change : Act Entry} {y : Except Error Answer}
    (ran : (showAfter id change).exec s = (y, t)) : (change.exec s).2.Quiet t := by
  refine quiet_after_attempt (fun x => ?_) ran
  split
  · exact quiet_showEntry id
  · exact quiet_answerTo _

theorem quiet_createEntries {request : String} {f : CreateForm} {y : Except Error Answer}
    (ran : (createEntries request f).exec s = (y, t)) :
    ((Ledger.create (f.entry request)).exec s).2.Quiet t := by
  refine quiet_after_attempt (fun x => ?_) ran
  split
  · exact within_bind (within_mapM (fun _ => Ledger.within_paymentInfo _) _)
      fun _ => quiet_shown _ _
  · exact within_bind (quiet_note _ _ _) fun _ => within_pure _
  · exact within_bind (quiet_note _ _ _) fun _ => within_pure _
  · exact quiet_answerTo _

theorem quiet_mergeEntry {request id : String} {y : Except Error Answer}
    (ran : (mergeEntry request id).exec s = (y, t)) :
    ((Ledger.merge id (some request)).exec s).2.Quiet t := by
  refine quiet_after_attempt (fun x => ?_) ran
  split
  · exact within_pure _
  · exact within_bind (quiet_note _ _ _) fun _ => within_pure _
  · exact within_fail _

theorem respond_cases {request : String} {target : Target} {isJson : Bool} {body : Body}
    {route : Route} {y : Except Error Answer}
    (h : (respond request target isJson body route).exec s = (y, t)) :
    s.Quiet t ∨ ∃ step, route.step? request isJson body = some step ∧
      (∀ r, step ≠ .serve r) ∧ (step.act.exec s).2.Quiet t := by
  cases route with
  | showPage => cases h; exact .inl (Session.Chain.refl s)
  | showHealth => exact .inl (quiet_health.of_exec h)
  | showMetrics => cases h; exact .inl (Session.Chain.refl s)
  | showEntry id => exact .inl ((quiet_showEntry id).of_exec h)
  | showCycle account => exact .inl ((quiet_showCycle account target).of_exec h)
  | showPlan account group => exact .inl ((quiet_showPlan account group).of_exec h)
  | createEntries =>
    unfold respond at h
    cases read : body.fields isJson >>= createForm with
    | error fault =>
      simp only [read] at h
      exact .inl ((quiet_formAnswer fault).of_exec h)
    | ok f =>
      simp only [read] at h
      refine .inr ⟨.create (f.entry request), ?_, fun _ => Step.noConfusion, ?_⟩
      · unfold Route.step?
        simp only [read]
        rfl
      · show ((Reply.entries <$> Ledger.create _).exec s).2.Quiet t
        rw [exec_map]
        exact quiet_createEntries h
  | changeEntry id =>
    unfold respond at h
    cases read : body.fields isJson >>= updateForm with
    | error fault =>
      simp only [read] at h
      exact .inl ((quiet_formAnswer fault).of_exec h)
    | ok changes =>
      simp only [read] at h
      refine .inr ⟨.update id changes, ?_, fun _ => Step.noConfusion, ?_⟩
      · unfold Route.step?
        simp only [read]
        rfl
      · show ((Reply.entry <$> Ledger.update _ _).exec s).2.Quiet t
        rw [exec_map]
        exact quiet_showAfter h
  | mergeEntry id =>
    refine .inr ⟨.merge id (some request), rfl, fun _ => Step.noConfusion, ?_⟩
    show ((Reply.merged <$> Ledger.merge _ _).exec s).2.Quiet t
    rw [exec_map]
    exact quiet_mergeEntry h
  | dismissEntry id =>
    refine .inr ⟨.dismiss id (some request), rfl, fun _ => Step.noConfusion, ?_⟩
    show ((Reply.entry <$> Ledger.dismiss _ _).exec s).2.Quiet t
    rw [exec_map]
    exact quiet_showAfter h

theorem serve_asks {r : Request} {x : Except Error Response} (h : (serve r).exec s = (x, t)) :
    s.Quiet t ∨ ∃ name step u, r.step? name = some step ∧ (∀ r, step ≠ .serve r) ∧ s.Quiet u ∧
      (step.act.exec u).2.Quiet t := by
  rcases serve_cases h with quiet | ⟨route, target, id, u, v, y, named, quiet, ran, quiet', -⟩
  · exact .inl quiet
  rcases respond_cases ran with quiet'' | ⟨step, asked, own, done⟩
  · exact .inl (Session.Chain.trans quiet (Session.Chain.trans quiet'' quiet'))
  · refine .inr ⟨id, step, u, ?_, own, quiet, Session.Chain.trans done quiet'⟩
    unfold Request.step?
    rw [named]
    exact asked

end Billfold.Http
