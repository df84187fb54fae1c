import Billfold.Proofs.Http.Failure
import Billfold.Proofs.Session.Merge
import Billfold.Proofs.Session.Row

/-!
# Steps that resolve a suggestion

An operation of the ledger or a request asks for the same resolution, and one that does not fail has
carried it out.

* `Step.resolution?`        what a step asks to be done with the suggestion of an entry
* `Session.Resolves`        it asks for that and does not fail
* `Resolves.dismissed`, `Resolves.merged`   what has then become of the row
* `keeps_of_failed_merge`   a merge that fails changes nothing
* `keeps_of_fails`          a suggestion that is not replaced stays with the rest of the book
-/

namespace Billfold

open Act

def Step.resolution? : Step → Option (Resolution × String)
  | .dismiss id _ => some (.dismiss, id)
  | .clear id _ => some (.clear, id)
  | .merge id _ => some (.merge, id)
  | .serve r =>
    match r.route? with
    | some (.dismissEntry id) => some (.dismiss, id)
    | some (.mergeEntry id) => some (.merge, id)
    | _ => none
  | _ => none

/-- a step is to resolve the suggestion of an entry, and does not fail -/
structure Session.Resolves (s : Session) (step : Step) (how : Resolution) (id : String) : Prop where
  asked : step.resolution? = some (how, id)
  done : (s.take step).1.fails = false

/-- a step gives an entry another suggestion or takes its own, and does not fail -/
structure Session.Replaces (s : Session) (step : Step) (id : String) : Prop where
  asked : step.resolution? = some (.clear, id) ∨ ∃ g, step = .attach id g
  done : (s.take step).1.fails = false

/-! ## requests -/

namespace Http

variable {s t : Session} {id : String}

theorem ok_of_showAfter {change : Act Entry} {y : Except Error Answer}
    (ran : (showAfter id change).exec s = (y, t)) (good : ¬ Failed y) :
    ∃ e u, change.exec s = (.ok e, u) ∧ u.Quiet t := by
  have quiet := quiet_showAfter ran
  rcases asked : change.exec s with ⟨x, u⟩
  rw [asked] at quiet
  cases x with
  | ok e => exact ⟨e, u, rfl, quiet⟩
  | error err =>
    unfold showAfter at ran
    rw [exec_bind, exec_attempt, asked] at ran
    have failed := failed_answerTo err u
    dsimp only at ran
    rw [ran] at failed
    exact absurd failed good

theorem ok_of_mergeEntry {request : String} {y : Except Error Answer}
    (ran : (mergeEntry request id).exec s = (y, t)) (good : ¬ Failed y) :
    ∃ m u, (Ledger.merge id (some request)).exec s = (.ok m, u) ∧ u.Quiet t := by
  have quiet := quiet_mergeEntry ran
  rcases asked : (Ledger.merge id (some request)).exec s with ⟨x, u⟩
  rw [asked] at quiet
  cases x with
  | ok m => exact ⟨m, u, rfl, quiet⟩
  | error err =>
    unfold mergeEntry at ran
    rw [exec_bind, exec_attempt, asked] at ran
    refine absurd ?_ good
    cases err with
    | notFound what =>
      obtain ⟨v, noted, -⟩ := exec_note .warning ("Merge failed: " ++ what.message)
        (requestField request) u
      dsimp only at ran
      rw [exec_bind, noted] at ran
      cases ran
      exact (by decide : 400 ≤ 404)
    | _ => cases ran; trivial

theorem keeps_of_failed_merge {request : String} {y : Except Error Answer}
    (ran : (mergeEntry request id).exec s = (y, t)) (failed : Failed y) : t.book = s.book := by
  have quiet := quiet_mergeEntry ran
  rcases asked : (Ledger.merge id (some request)).exec s with ⟨x, u⟩
  rw [asked] at quiet
  rcases Ledger.merge_cases asked with ⟨_, -, same⟩ | ⟨_, _, -, -, -, -, rfl⟩
  · exact quiet.book.trans same
  · unfold mergeEntry at ran
    rw [exec_bind, exec_attempt, asked] at ran
    cases ran
    exact absurd failed (by decide : ¬ 400 ≤ 200)

end Http

namespace Session

variable {s : Session} {step done : Step} {id : String} {how : Resolution}

theorem answered_of_serve {r : Http.Request} {route : Http.Route} (named : r.route? = some route)
    (done : (s.take (.serve r)).1.fails = false) :
    ∃ target name u v answer, s.Quiet u ∧
      (Http.respond name target r.isJson r.body route).exec u = (answer, v) ∧
      v.Quiet (s.take (.serve r)).2 ∧ ¬ Http.Failed answer := by
  have ran := take_exec s (.serve r)
  obtain ⟨x, ran, result⟩ := exec_map_cases ran
  have good : ¬ Http.IsFailure x := by
    rw [← Outcome.fails_iff result, done]
    exact Bool.false_ne_true
  rcases Http.serve_answers ran with
    ⟨-, failed⟩ | ⟨other, target, name, u, v, answer, named', quiet, ran, quiet', rfl⟩
  · exact absurd failed good
  rw [named] at named'
  cases named'
  refine ⟨target, name, u, v, answer, Chain.trans (quiet_emptied s) quiet, ran, quiet', ?_⟩
  exact fun failed => good (Http.isFailure_sent.2 failed)

theorem Does.resolution (does : Does step done) : done.resolution? = step.resolution? := by
  cases does with
  | itself own => rfl
  | @asked r name done given =>
    obtain ⟨route, named, given⟩ := Option.bind_eq_some_iff.1 given
    unfold Step.resolution?
    simp only [named]
    cases route with
    | createEntries =>
      obtain ⟨_, -, rfl⟩ := Option.map_eq_some_iff.1 given
      rfl
    | changeEntry other =>
      obtain ⟨_, -, rfl⟩ := Option.map_eq_some_iff.1 given
      rfl
    | dismissEntry other => cases given; rfl
    | mergeEntry other => cases given; rfl
    | _ => cases given

/-! ## what a resolution has done -/

/-- **A suggestion is dismissed in the row of its entry, and nothing else of the book changes.** -/
theorem Resolves.dismissed (h : s.Resolves step .dismiss id) :
    ∃ row changed settled, s.book.row? id = some row ∧
      row.Revised Entry.dismiss changed settled ∧
      (s.take step).2.book = s.book.putRow settled := by
  obtain ⟨asked, done⟩ := h
  cases step with
  | dismiss other request =>
    have ran := take_exec s (.dismiss other request)
    cases asked
    obtain ⟨x, ran, result⟩ := exec_map_cases ran
    rw [Ledger.dismiss_eq] at ran
    rcases Ledger.told_cases ran with
      ⟨e, rfl, -⟩ | ⟨row, changed, settled, -, found, revised, put, -⟩
    · unfold Outcome.fails at done
      rw [result] at done
      cases done
    · exact ⟨row, changed, settled, found, revised, put⟩
  | serve r =>
    unfold Step.resolution? at asked
    dsimp only at asked
    split at asked
    · next other named =>
      cases asked
      obtain ⟨target, name, u, v, answer, quiet, ran, quiet', good⟩ :=
        answered_of_serve named done
      obtain ⟨e, w, ran, quiet''⟩ := Http.ok_of_showAfter ran good
      rw [Ledger.dismiss_eq] at ran
      rcases Ledger.told_cases ran with
        ⟨_, e, -⟩ | ⟨row, changed, settled, -, found, revised, put, -⟩
      · cases e
      · rw [quiet.book] at found put
        exact ⟨row, changed, settled, found, revised,
          (Chain.trans quiet'' quiet').book.trans put⟩
    · cases asked
    · cases asked
  | clear => cases asked
  | merge => cases asked
  | _ => cases asked

/-- **A row is merged into another one, and nothing else of the book changes.** -/
theorem Resolves.merged (h : s.Resolves step .merge id) :
    ∃ row m, s.storeUp = true ∧ s.book.row? id = some row ∧ s.book.Merges row m ∧
      (s.take step).2.book = s.book.dropRow id := by
  obtain ⟨asked, done⟩ := h
  cases step with
  | merge other request =>
    have ran := take_exec s (.merge other request)
    cases asked
    obtain ⟨x, ran, result⟩ := exec_map_cases ran
    rcases Ledger.merge_cases ran with ⟨e, rfl, -⟩ | ⟨row, m, up, found, merges, dropped, -⟩
    · unfold Outcome.fails at done
      rw [result] at done
      cases done
    · exact ⟨row, m, up, found, merges, dropped⟩
  | serve r =>
    unfold Step.resolution? at asked
    dsimp only at asked
    split at asked
    · cases asked
    · next other named =>
      cases asked
      obtain ⟨target, name, u, v, answer, quiet, ran, quiet', good⟩ :=
        answered_of_serve named done
      obtain ⟨m, w, ran, quiet''⟩ := Http.ok_of_mergeEntry ran good
      rcases Ledger.merge_cases ran with ⟨_, e, -⟩ | ⟨row, m, up, found, merges, dropped, -⟩
      · cases e
      · rw [quiet.book] at found merges dropped
        rw [quiet.storeUp] at up
        exact ⟨row, m, up, found, merges, (Chain.trans quiet'' quiet').book.trans dropped⟩
    · cases asked
  | dismiss => cases asked
  | clear => cases asked
  | _ => cases asked

theorem keeps_of_failed_merge (asked : step.resolution? = some (.merge, id))
    (failed : (s.take step).1.fails = true) : (s.take step).2.book = s.book := by
  have ran := take_exec s step
  cases step with
  | merge other request =>
    obtain ⟨x, ran, result⟩ := exec_map_cases ran
    rcases Ledger.merge_cases ran with ⟨_, -, same⟩ | ⟨_, _, -, -, -, -, rfl⟩
    · exact same
    · unfold Outcome.fails at failed
      rw [result] at failed
      cases failed
  | serve r =>
    unfold Step.resolution? at asked
    dsimp only at asked
    split at asked
    · cases asked
    · next other named =>
      obtain ⟨x, ran, result⟩ := exec_map_cases ran
      rcases Http.serve_cases ran with
        quiet | ⟨route, target, name, u, v, y, named', quiet, ran, quiet', fails⟩
      · exact (Chain.trans (quiet_emptied s) quiet).book
      rw [named] at named'
      cases named'
      have same := Http.keeps_of_failed_merge ran (fails.1 ((Outcome.fails_iff result).1 failed))
      exact quiet'.book.trans (same.trans (Chain.trans (quiet_emptied s) quiet).book)
    · cases asked
  | dismiss => cases asked
  | clear => cases asked
  | _ => cases asked

theorem keeps_of_fails (asked : step.resolution? = some (.clear, id) ∨ ∃ g, step = .attach id g)
    (failed : ¬ s.Replaces step id) : (s.take step).2.book = s.book := by
  have fails : ¬ (s.take step).1.fails = false := fun done => failed ⟨asked, done⟩
  have ran := take_exec s step
  rcases asked with asked | ⟨g, rfl⟩
  · cases step with
    | clear other request =>
      obtain ⟨x, ran, result⟩ := exec_map_cases ran
      rw [Ledger.clear_eq] at ran
      rcases Ledger.told_cases ran with ⟨_, -, same⟩ | ⟨_, _, _, -, -, -, -, rfl⟩
      · exact same
      · refine absurd ?_ fails
        unfold Outcome.fails
        rw [result]
        rfl
    | serve r =>
      unfold Step.resolution? at asked
      dsimp only at asked
      split at asked <;> cases asked
    | dismiss => cases asked
    | merge => cases asked
    | _ => cases asked
  · obtain ⟨x, ran, result⟩ := exec_map_cases ran
    rcases Ledger.revise_cases ran with ⟨_, -, same⟩ | ⟨_, _, _, -, -, -, -, rfl⟩
    · exact same
    · refine absurd ?_ fails
      unfold Outcome.fails
      rw [result]
      rfl

end Session

end Billfold
