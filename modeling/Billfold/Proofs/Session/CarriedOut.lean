import Billfold.Proofs.Session.Resolve

/-!
# Steps that are carried out

A step that creates entries, or changes one, is carried out if it does not fail; and so it is if the
book is another after it, though what it did could not be told.

* `Session.Creates`, `Creates.drafted`   entries created, and the rows that are then in the book
* `Session.Updates`, `Updates.updated`   an entry changed, and the row that is then in its place
-/

namespace Billfold

open Act

/-! ## requests -/

namespace Http

variable {s t : Session}

theorem ok_of_createEntries {request : String} {f : CreateForm} {y : Except Error Answer}
    (ran : (createEntries request f).exec s = (y, t)) (good : ¬ Failed y) :
    ∃ es u, (Ledger.create (f.entry request)).exec s = (.ok es, u) ∧ u.Quiet t := by
  have quiet := quiet_createEntries ran
  rcases asked : (Ledger.create (f.entry request)).exec s with ⟨x, u⟩
  rw [asked] at quiet
  cases x with
  | ok es => exact ⟨es, u, rfl, quiet⟩
  | error err =>
    unfold createEntries at ran
    rw [exec_bind, exec_attempt, asked] at ran
    refine absurd ?_ good
    have warned (level : Level) (words : String) (answer : Answer) (bad : 400 ≤ answer.1)
        (ran : (note level words (requestField request) >>= fun _ => pure answer).exec u = (y, t)) :
        Failed y := by
      obtain ⟨v, noted, -⟩ := exec_note level words (requestField request) u
      rw [exec_bind, noted] at ran
      cases ran
      exact bad
    have plain (answered : (answerTo err).exec u = (y, t)) : Failed y := by
      have failed := failed_answerTo err u
      rwa [answered] at failed
    cases err with
    | refused why => exact warned _ _ _ (by decide : 400 ≤ 422) ran
    | batchFailed rows => exact warned _ _ _ (by decide : 400 ≤ 500) ran
    | _ => exact plain ran

end Http

namespace Session

variable {s : Session} {step : Step} {id : String} {e : NewEntry} {c : Changes}

/-! ## creating -/

/-- a step that is to create entries does so: it does not fail, or the book is another after it -/
structure Creates (s : Session) (step : Step) (e : NewEntry) : Prop where
  asked : Does step (.create e)
  done : (s.take step).1.fails = false ∨ (s.take step).2.book ≠ s.book

theorem changed_of_created (h : s.Reachable) (does : Does step (.create e))
    (done : (s.take step).1.fails = false) : (s.take step).2.book ≠ s.book := by
  -- a request has at least one entry
  have more {u v : Session} {e : NewEntry} {es : List Entry} (num : u.book.Numbered u.usedIds)
      (ran : (Ledger.create e).exec u = (.ok es, v)) : v.book ≠ u.book := by
    rcases Ledger.create_drafts num ran with ⟨_, e, -⟩ | ⟨plan, rows, drafted, put, -⟩
    · cases e
    obtain ⟨account, policy, entries, -, -, count, -, written⟩ := drafted.created.written
    have pos := clampCount_pos (Except.bind_eq_ok.1 count).choose_spec.2
    rw [put]
    exact Book.addRows_ne (by rw [written.length_eq]; exact pos)
  cases does with
  | itself own =>
    obtain ⟨x, ran, result⟩ := exec_map_cases (take_exec s (.create e))
    cases x with
    | error err =>
      unfold Outcome.fails at done
      rw [result] at done
      cases done
    | ok es => exact more (u := { s with log := [] }) h.numbered ran
  | @asked r name _ given =>
    obtain ⟨route, named, given⟩ := Option.bind_eq_some_iff.1 given
    cases route with
    | createEntries =>
      obtain ⟨target, _, u, v, answer, quiet, ran, quiet', good⟩ := answered_of_serve named done
      obtain ⟨f, form, -⟩ := Option.map_eq_some_iff.1 given
      unfold Http.respond at ran
      cases read : r.body.fields r.isJson >>= Http.createForm with
      | error fault =>
        rw [read] at form
        cases form
      | ok f =>
        simp only [read] at ran
        obtain ⟨es, w, ran, quiet''⟩ := Http.ok_of_createEntries ran good
        have num : u.book.Numbered u.usedIds := by
          rw [quiet.book, quiet.usedIds]
          exact h.numbered
        rw [(Chain.trans quiet'' quiet').book, ← quiet.book]
        exact more num ran
    | changeEntry other =>
      obtain ⟨_, -, same⟩ := Option.map_eq_some_iff.1 given
      cases same
    | _ => cases given

theorem Creates.drafted (h : s.Reachable) (creates : s.Creates step e) :
    ∃ plan rows, Ledger.Drafted s e plan rows ∧ (s.take step).2.book = s.book.addRows rows ∧
      s.usedIds + rows.length ≤ (s.take step).2.usedIds ∧
      s.usedGroups + Ledger.groupsOf plan ≤ (s.take step).2.usedGroups := by
  rcases drafted_of_take h creates.asked with same | drafted
  · rcases creates.done with done | changed
    · exact absurd same (changed_of_created h creates.asked done)
    · exact absurd same changed
  · exact drafted

/-! ## changing -/

/-- a step that is to change a row does so: it does not fail, or the book is another after it -/
structure Updates (s : Session) (step : Step) (id : String) (c : Changes) : Prop where
  asked : Does step (.update id c)
  done : (s.take step).1.fails = false ∨ (s.take step).2.book ≠ s.book

theorem updated_of_done (does : Does step (.update id c))
    (done : (s.take step).1.fails = false) :
    ∃ row settled, s.book.row? id = some row ∧ row.Updated s.book s.clock c settled ∧
      (s.take step).2.book = s.book.putRow settled := by
  cases does with
  | itself own =>
    obtain ⟨x, ran, result⟩ := exec_map_cases (take_exec s (.update id c))
    rcases Ledger.update_cases ran with ⟨_, rfl, -⟩ | ⟨row, settled, -, found, updated, put, -⟩
    · unfold Outcome.fails at done
      rw [result] at done
      cases done
    · exact ⟨row, settled, found, updated, put⟩
  | @asked r name _ given =>
    obtain ⟨route, named, given⟩ := Option.bind_eq_some_iff.1 given
    cases route with
    | changeEntry other =>
      obtain ⟨changes, form, same⟩ := Option.map_eq_some_iff.1 given
      cases same
      obtain ⟨target, name, u, v, answer, quiet, ran, quiet', good⟩ := answered_of_serve named done
      unfold Http.respond at ran
      cases read : r.body.fields r.isJson >>= Http.updateForm with
      | error fault =>
        rw [read] at form
        cases form
      | ok changes =>
        rw [read] at form
        cases form
        simp only [read] at ran
        obtain ⟨e, w, ran, quiet''⟩ := Http.ok_of_showAfter ran good
        rcases Ledger.update_cases ran with ⟨_, e, -⟩ | ⟨row, settled, -, found, updated, put, -⟩
        · cases e
        · rw [quiet.book] at found updated put
          rw [quiet.clock] at updated
          exact ⟨row, settled, found, updated, (Chain.trans quiet'' quiet').book.trans put⟩
    | createEntries =>
      obtain ⟨_, -, same⟩ := Option.map_eq_some_iff.1 given
      cases same
    | _ => cases given

/-- **A change that is carried out puts another version of the row in its place.** -/
theorem Updates.updated (h : s.Reachable) (updates : s.Updates step id c) :
    ∃ row settled, s.book.row? id = some row ∧ row.Updated s.book s.clock c settled ∧
      (s.take step).2.book = s.book.putRow settled := by
  rcases updates.done with done | changed
  · exact updated_of_done updates.asked done
  obtain ⟨-, _, _, -, -, ⟨same, -⟩ | ⟨other, does, turn⟩⟩ := take_turn h.numbered step
  · exact absurd same changed
  have asked : other = .update id c := by
    have same := does.anonymous_eq updates.asked
    cases other <;> cases same
    rfl
  subst asked
  generalize (s.take step).2.book = after at turn changed
  cases turn with
  | same => exact absurd rfl changed
  | updated found updated => exact ⟨_, _, found, updated, rfl⟩
  | revised asked => cases asked

end Session

end Billfold
