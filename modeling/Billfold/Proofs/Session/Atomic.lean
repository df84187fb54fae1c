import Billfold.Proofs.Session.Reachable

/-!
# Failing without a trace

What the ledger itself answers as an error comes before anything is kept, or after all of it was
taken back.  Only a fault below the ledger can come later, when rows that are kept cannot be read.

* `Error.isOwn`            an error that the ledger answers in words of its own
* `keeps_of_error`         an operation that fails keeps the book, or fails by a fault
* `own_error_keeps_book`   no such error leaves a trace, and a batch is written as a whole
-/

namespace Billfold

def Error.isOwn : Error → Bool
  | .fault _ => false
  | _ => true

def Outcome.error? (o : Outcome) : Option Error :=
  match o.result with
  | .ok _ => none
  | .error e => some e

theorem Outcome.error?_eq_some {o : Outcome} {e : Error} :
    o.error? = some e ↔ o.result = .error e := by
  unfold error?
  cases o.result with
  | ok _ => exact ⟨fun h => (nomatch h), fun h => (nomatch h)⟩
  | error _ => exact ⟨fun h => by cases h; rfl, fun h => by cases h; rfl⟩

namespace Session

open Act

variable {s t : Session} {step : Step}

theorem keeps_of_error (num : s.book.Numbered s.usedIds) {err : Error}
    (h : step.act.exec s = (.error err, t)) : t.book = s.book ∨ ∃ f, err = .fault f := by
  have inquiry : Within Session.Quiet step.act → t.book = s.book ∨ ∃ f, err = .fault f :=
    fun quiet => .inl (quiet.of_exec h).book
  cases step with
  | openAccount a =>
    obtain ⟨x, ran, e⟩ := exec_map_cases h
    rcases Ledger.openAccount_cases ran with ⟨_, -, same⟩ | ⟨account, rfl, -⟩
    · exact .inl same
    · cases e
  | editAccount id changes =>
    obtain ⟨x, ran, e⟩ := exec_map_cases h
    rcases Ledger.editAccount_cases ran with same | ⟨rfl, -⟩
    · exact .inl same
    · cases e
  | editRow id changes =>
    obtain ⟨x, ran, e⟩ := exec_map_cases h
    rcases Ledger.editRow_cases ran with same | ⟨rfl, -⟩
    · exact .inl same
    · cases e
  | deleteRow id =>
    obtain ⟨x, ran, e⟩ := exec_map_cases h
    rcases Ledger.deleteRow_cases ran with ⟨-, same⟩ | ⟨rfl, -⟩
    · exact .inl same
    · cases e
  | create new =>
    obtain ⟨x, ran, e⟩ := exec_map_cases h
    rcases Ledger.create_cases num ran with ⟨_, -, same⟩ | ⟨rows, -, -, -, rfl⟩
    · exact .inl same
    · -- the batch is kept, and only reading its rows can have failed
      exact .inr (Except.error_of_liftFault (Except.map_eq_error.1 e.symm))
  | update id c =>
    obtain ⟨x, ran, e⟩ := exec_map_cases h
    rcases Ledger.update_cases ran with ⟨_, -, same⟩ | ⟨_, _, -, -, -, -, rfl⟩
    · exact .inl same
    · exact .inr (Except.error_of_liftFault (Except.map_eq_error.1 e.symm))
  | attach id suggestion =>
    obtain ⟨x, ran, e⟩ := exec_map_cases h
    rcases Ledger.revise_cases ran with ⟨_, -, same⟩ | ⟨_, _, _, -, -, -, -, rfl⟩
    · exact .inl same
    · cases e
  | dismiss id request =>
    obtain ⟨x, ran, e⟩ := exec_map_cases h
    rw [Ledger.dismiss_eq] at ran
    rcases Ledger.told_cases ran with ⟨_, -, same⟩ | ⟨_, _, _, -, -, -, -, rfl⟩
    · exact .inl same
    · cases e
  | clear id request =>
    obtain ⟨x, ran, e⟩ := exec_map_cases h
    rw [Ledger.clear_eq] at ran
    rcases Ledger.told_cases ran with ⟨_, -, same⟩ | ⟨_, _, _, -, -, -, -, rfl⟩
    · exact .inl same
    · cases e
  | merge id request =>
    obtain ⟨x, ran, e⟩ := exec_map_cases h
    rcases Ledger.merge_cases ran with ⟨_, -, same⟩ | ⟨_, _, -, -, -, -, rfl⟩
    · exact .inl same
    · cases e
  | serve r =>
    obtain ⟨x, ran, e⟩ := exec_map_cases h
    cases Except.map_eq_error.1 e.symm
    exact .inr (Http.fault_of_serve ran)
  | paymentInfo id => exact inquiry (within_map _ (Ledger.within_paymentInfo id))
  | group account name => exact inquiry (within_map _ (Ledger.within_group account name))
  | billingCycle account reference =>
    exact inquiry
      (within_bind (Ledger.within_billingCycle account reference) fun _ => within_pure _)
  | listRows => exact inquiry (within_map _ (within_bind within_book fun _ => within_pure _))
  | metrics => exact inquiry (within_bind within_get fun _ => within_pure _)
  | setClock now => cases h
  | refuseRow k => cases h

/-- **An error of the ledger's own leaves no trace, and a batch is written as a whole.**  Creating
either fails and keeps the book, or adds one row for each period that was asked for; then only a
fault can still be answered. -/
theorem own_error_keeps_book (h : s.Reachable) (step : Step) :
    (∀ err, (s.take step).1.error? = some err → err.isOwn → (s.take step).2.book = s.book) ∧
    (∀ e, step = .create e →
      (∃ err, (s.take step).1.error? = some err ∧ (s.take step).2.book = s.book) ∨
      ∃ n rows, readCount s.settings.maxInstallments e.count = .ok n ∧ rows.length = n ∧
        (∀ row ∈ rows, row.account = e.account ∧ s.book.row? row.id = none) ∧
        (s.take step).2.book = s.book.addRows rows ∧
        ∀ err, (s.take step).1.error? = some err → ∃ f, err = .fault f) := by
  simp only [Outcome.error?_eq_some]
  have ran := take_exec s step
  constructor
  · intro err failed own
    rw [failed] at ran
    rcases keeps_of_error (s := { s with log := [] }) h.numbered ran with same | ⟨f, rfl⟩
    · exact same
    · cases own
  · rintro e rfl
    obtain ⟨x, ran, result⟩ := exec_map_cases ran
    rw [result]
    rcases Ledger.create_cases (s := { s with log := [] }) h.numbered ran with
      ⟨err, rfl, same⟩ | ⟨rows, created, put, -, rfl⟩
    · exact .inl ⟨err, rfl, same⟩
    obtain ⟨account, policy, entries, found, -, count, asked, written⟩ := created.written
    refine .inr ⟨entries.length, rows, count, written.length_eq, ?_, put, ?_⟩
    · intro row hr
      obtain ⟨c, hc, k, stamp, lt, -, kept⟩ := written.exists_of_mem hr
      have settles := Row.settles_of_settled? kept
      constructor
      · rw [settles.account, Row.account_stampedBy]
        exact (asked c hc).account
      · rw [id_of_kept kept]
        exact Book.row?_eq_none.2 (h.numbered.ne_numbered lt)
    · intro err failed
      exact Except.error_of_liftFault (Except.map_eq_error.1 failed)

/-! ## a batch that is taken back -/

/-- the store is to refuse the second row from now -/
def refusingSecond : Session := (firstPurchase.run [.refuseRow 2]).2

/-- a plan of three periods is refused at its second row, and its first is taken back -/
theorem own_error_keeps_book_refused :
    refusingSecond.Reachable ∧
      (refusingSecond.take (.create (.purchase "Chair" 3))).1.error? = some (.batchFailed 3) ∧
      (refusingSecond.take (.create (.purchase "Chair" 3))).2.book = refusingSecond.book := by
  have reachable : refusingSecond.Reachable := reachable_firstPurchase.run _
  have failed : (refusingSecond.take (.create (.purchase "Chair" 3))).1.error? =
      some (.batchFailed 3) := by decide +kernel
  exact ⟨reachable, failed, (own_error_keeps_book reachable _).1 _ failed rfl⟩

end Session

end Billfold
