import Billfold.Http.Serve
import Billfold.Proofs.Ledger.Exec

/-!
# Where a request goes

A request is sent on until its path has a place or nothing is left to cut off; only there it is
answered, by the one route of its method.

* `landing?`            the target at which a request is answered
* `Request.route?`      the route of a request, if it has one
* `follow_cases`        on the way nothing is done but counting
* `serve_answers`       a request is sent the answer of its route, or fails without one
* `serve_cases`         a request does what its route does, or nothing
-/

namespace Billfold.Http

open Act

/-- the target at which a request is answered, if it is not sent on too often -/
def landing? : Nat → Target → Option Target
  | 0, target => if (redirect? target).isSome then none else some target
  | hops + 1, target =>
    match redirect? target with
    | none => some target
    | some other => landing? hops other

namespace Request

/-- the target at which a request is answered, if it can be sent there -/
def target? (r : Request) : Option Target := do
  let reference ← Reference.parse? r.path.toList
  if r.needSendable.toBool && (needServed reference).toBool then
    landing? maxHops (.of reference r.params)
  else
    none

/-- the route of a request, if the place it is answered at has one for its method -/
def route? (r : Request) : Option Route := do
  let target ← r.target?
  let place ← Place.ofPath? target.path
  routeOf? (Text.toCapitals r.method) place

end Request

/-! ## the way there -/

variable {s t : Session}

theorem quiet_requestId (r : Request) : Within Session.Quiet (requestId r) := by
  unfold requestId
  split
  · split
    · exact quiet_freshRequest
    · exact within_pure _
  · exact quiet_freshRequest

theorem exec_requestId (r : Request) (s : Session) :
    ∃ id t, (requestId r).exec s = (.ok id, t) ∧ s.Quiet t := by
  rcases e : (requestId r).exec s with ⟨x, t⟩
  have quiet := (quiet_requestId r).of_exec e
  unfold requestId at e
  split at e
  · split at e
    · cases e; exact ⟨_, _, rfl, quiet⟩
    · cases e; exact ⟨_, _, rfl, quiet⟩
  · cases e; exact ⟨_, _, rfl, quiet⟩

section
variable {r : Request} {target other : Target}

theorem follow_of_none (hops : Nat) (h : redirect? target = none) :
    follow r hops target = serveAt r target := by
  rw [follow.eq_def, h]

theorem exec_follow_zero (h : redirect? target = some other) (s : Session) :
    ∃ t, (follow r 0 target).exec s = (.error (.fault .endlessRedirect), t) ∧ s.Quiet t := by
  obtain ⟨id, u, named, quiet⟩ := exec_requestId r s
  obtain ⟨v, counted, quiet'⟩ := exec_count (.requests target.label r.method 307) 1 u
  refine ⟨v, ?_, Session.Chain.trans quiet quiet'⟩
  rw [follow.eq_def, h]
  simp only [exec_bind, named, counted]
  rfl

theorem exec_follow_succ (hops : Nat) (h : redirect? target = some other) (s : Session) :
    ∃ t, (follow r (hops + 1) target).exec s = (follow r hops other).exec t ∧ s.Quiet t := by
  obtain ⟨id, u, named, quiet⟩ := exec_requestId r s
  obtain ⟨v, counted, quiet'⟩ := exec_count (.requests target.label r.method 307) 1 u
  refine ⟨v, ?_, Session.Chain.trans quiet quiet'⟩
  rw [follow.eq_def, h]
  simp only [exec_bind, named, counted]

end

theorem follow_cases {r : Request} {hops : Nat} {target : Target} {x : Except Error Response}
    (h : (follow r hops target).exec s = (x, t)) :
    (s.Quiet t ∧ ∃ f, x = .error (.fault f)) ∨
      ∃ place u, landing? hops target = some place ∧ s.Quiet u ∧
        (serveAt r place).exec u = (x, t) := by
  induction hops generalizing s target with
  | zero =>
    cases there : redirect? target with
    | none =>
      rw [follow_of_none 0 there] at h
      exact .inr ⟨target, s, by unfold landing?; rw [there]; rfl, Session.Chain.refl s, h⟩
    | some other =>
      obtain ⟨u, sent, quiet⟩ := exec_follow_zero (r := r) there s
      rw [sent] at h
      cases h
      exact .inl ⟨quiet, _, rfl⟩
  | succ hops ih =>
    cases there : redirect? target with
    | none =>
      rw [follow_of_none _ there] at h
      exact .inr ⟨target, s, by unfold landing?; rw [there], Session.Chain.refl s, h⟩
    | some other =>
      obtain ⟨u, sent, quiet⟩ := exec_follow_succ (r := r) hops there s
      rw [sent] at h
      have way : landing? (hops + 1) target = landing? hops other := by
        rw [landing?, there]
      rw [way]
      rcases ih h with ⟨quiet', fault⟩ | ⟨place, v, landed, quiet', served⟩
      · exact .inl ⟨Session.Chain.trans quiet quiet', fault⟩
      · exact .inr ⟨place, v, landed, Session.Chain.trans quiet quiet', served⟩

theorem serve_at_cases {r : Request} {x : Except Error Response}
    (h : (serve r).exec s = (x, t)) :
    (s.Quiet t ∧ ∃ f, x = .error (.fault f)) ∨
      ∃ target u, r.target? = some target ∧ s.Quiet u ∧
        (serveAt { r with method := Text.toCapitals r.method } target).exec u = (x, t) := by
  unfold serve at h
  dsimp only at h
  cases parsed : Reference.parse? r.path.toList with
  | none =>
    rw [parsed] at h
    cases h
    exact .inl ⟨Session.Chain.refl s, _, rfl⟩
  | some reference =>
    rw [parsed] at h
    dsimp only at h
    rcases exec_bind_cases h with ⟨e, failed, rfl⟩ | ⟨_, _, sent, run⟩
    · obtain ⟨⟨f, rfl⟩, rfl⟩ := exec_ofFault_error failed
      exact .inl ⟨Session.Chain.refl s, f, rfl⟩
    obtain ⟨sendable, rfl⟩ := exec_ofFault_ok sent
    rcases exec_bind_cases run with ⟨e, failed, rfl⟩ | ⟨_, _, sent, run⟩
    · obtain ⟨⟨f, rfl⟩, rfl⟩ := exec_ofFault_error failed
      exact .inl ⟨Session.Chain.refl s, f, rfl⟩
    obtain ⟨served, rfl⟩ := exec_ofFault_ok sent
    rcases follow_cases run with none | ⟨target, u, landed, quiet, done⟩
    · exact .inl none
    · have sendable : r.needSendable = .ok _ := sendable
      have found : r.target? = some target := by
        unfold Request.target?
        rw [parsed]
        show (if r.needSendable.toBool && (needServed reference).toBool then _ else _) = _
        rw [sendable, served]
        exact landed
      exact .inr ⟨target, u, found, quiet, done⟩

/-! ## the answer there -/

/-- an answer fails if it is none, or its status says so -/
def Failed (answer : Except Error Answer) : Prop :=
  match answer with
  | .ok (status, _) => 400 ≤ status
  | .error _ => True

/-- a response fails if it is none, or its status says so -/
def IsFailure (response : Except Error Response) : Prop :=
  match response with
  | .ok r => 400 ≤ r.status
  | .error _ => True

/-- an answer as it is sent, and a response of its own where there is none -/
def Request.sent (r : Request) (id : String) : Except Error Answer → Response
  | .ok (status, body) => ⟨status, some id, r.arriving body⟩
  | .error _ => ⟨500, none, r.arriving (.text "Internal Server Error")⟩

theorem isFailure_sent {r : Request} {id : String} {answer : Except Error Answer} :
    IsFailure (.ok (r.sent id answer)) ↔ Failed answer := by
  cases answer with
  | error e => exact ⟨fun _ => trivial, fun _ => (by decide : 400 ≤ 500)⟩
  | ok answer => exact Iff.rfl

theorem serveAt_cases {r : Request} {target : Target} {x : Except Error Response}
    (h : (serveAt r target).exec s = (x, t)) :
    ∃ id u v answer, s.Quiet u ∧ (answerAt r id target).2.exec u = (answer, v) ∧ v.Quiet t ∧
      x = .ok (r.sent id answer) := by
  unfold serveAt at h
  obtain ⟨id, u, named, quiet⟩ := exec_requestId r s
  rw [exec_bind, named] at h
  dsimp only at h
  rcases e : answerAt r id target with ⟨label, act⟩
  rw [e] at h
  dsimp only at h
  rcases ran : act.exec u with ⟨answer, v⟩
  rw [exec_bind, exec_attempt, ran] at h
  refine ⟨id, u, v, answer, quiet, by rw [e]; exact ran, ?_⟩
  cases answer with
  | error err =>
    cases h
    exact ⟨Session.Chain.refl _, rfl⟩
  | ok answer =>
    obtain ⟨w, counted, quiet'⟩ := exec_count (.requests label r.method answer.1) 1 v
    dsimp only at h
    rw [exec_bind, counted] at h
    cases h
    exact ⟨quiet', rfl⟩

theorem serve_answers {r : Request} {x : Except Error Response}
    (h : (serve r).exec s = (x, t)) :
    (s.Quiet t ∧ IsFailure x) ∨ ∃ route target id u v answer, r.route? = some route ∧
      s.Quiet u ∧ (respond id target r.isJson r.body route).exec u = (answer, v) ∧ v.Quiet t ∧
      x = .ok ({ r with method := Text.toCapitals r.method }.sent id answer) := by
  rcases serve_at_cases h with ⟨quiet, f, rfl⟩ | ⟨target, u, found, quiet, served⟩
  · exact .inl ⟨quiet, trivial⟩
  obtain ⟨id, v, w, answer, quiet', ran, quiet'', rfl⟩ := serveAt_cases served
  have way := Session.Chain.trans quiet quiet'
  unfold answerAt at ran
  cases placed : Place.ofPath? target.path with
  | none =>
    rw [placed] at ran
    cases ran
    exact .inl ⟨Session.Chain.trans way quiet'', isFailure_sent.2 (by decide : 400 ≤ 404)⟩
  | some place =>
    rw [placed] at ran
    cases routed : routeOf? (Text.toCapitals r.method) place with
    | none =>
      simp only [routed] at ran
      cases ran
      exact .inl ⟨Session.Chain.trans way quiet'', isFailure_sent.2 (by decide : 400 ≤ 405)⟩
    | some route =>
      simp only [routed] at ran
      have named : r.route? = some route := by
        unfold Request.route?
        rw [found]
        show (Place.ofPath? target.path >>= fun place => _) = _
        rw [placed]
        exact routed
      exact .inr ⟨route, target, id, v, w, answer, named, way, ran, quiet'', rfl⟩

/-- **A request does what its route does**, or nothing; it fails as the route's answer does. -/
theorem serve_cases {r : Request} {x : Except Error Response}
    (h : (serve r).exec s = (x, t)) :
    s.Quiet t ∨ ∃ route target id u v answer, r.route? = some route ∧ s.Quiet u ∧
      (respond id target r.isJson r.body route).exec u = (answer, v) ∧ v.Quiet t ∧
      (IsFailure x ↔ Failed answer) := by
  rcases serve_answers h with
    ⟨quiet, -⟩ | ⟨route, target, id, u, v, answer, named, quiet, ran, quiet', rfl⟩
  · exact .inl quiet
  · exact .inr ⟨route, target, id, u, v, answer, named, quiet, ran, quiet', isFailure_sent⟩

theorem fault_of_serve {r : Request} {e : Error} (h : (serve r).exec s = (.error e, t)) :
    ∃ f, e = .fault f := by
  rcases serve_at_cases h with ⟨-, f, e⟩ | ⟨target, u, -, -, served⟩
  · cases e
    exact ⟨f, rfl⟩
  · obtain ⟨_, _, _, _, -, -, -, e⟩ := serveAt_cases served
    cases e

end Billfold.Http
