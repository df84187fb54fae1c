import Billfold.Ledger.Upkeep
import Billfold.Proofs.Ledger.Update

/-!
# Upkeep and inquiries

What is done to stored columns directly, and that inquiries do nothing.

* `openAccount_cases`, `editAccount_cases`   one account more, or one put in place
* `editRow_cases`, `deleteRow_cases`         one row put in place, or dropped
* `within_paymentInfo`, `within_group`, `within_billingCycle`   inquiries do nothing
-/

namespace Billfold.Ledger

open Act

variable {s t : Session} {id : String}

theorem openAccount_cases {a : NewAccount} {x : Except Error Account}
    (h : (openAccount a).exec s = (x, t)) :
    (∃ e, x = .error e ∧ t.book = s.book) ∨
      ∃ account, x = .ok account ∧ t.book = s.book.addAccount account := by
  unfold openAccount at h
  rcases exec_bind_keeps (within_ofResult _) h with failed | ⟨_, _, checked, run⟩
  · exact .inl failed
  obtain ⟨-, rfl⟩ := exec_ofResult_ok checked
  rcases exec_bind_keeps within_statement run with failed | ⟨_, _, asked, run⟩
  · exact .inl failed
  obtain ⟨-, rfl⟩ := exec_statement_ok asked
  rw [exec_bind, exec_freshId] at run
  dsimp only at run
  split at run
  · cases run
    exact .inl ⟨_, rfl, rfl⟩
  · split at run
    · cases run
      exact .inl ⟨_, rfl, rfl⟩
    · cases run
      exact .inr ⟨_, rfl, rfl⟩

theorem editAccount_cases {changes : List AccountChange} {x : Except Error Unit}
    (h : (editAccount id changes).exec s = (x, t)) :
    t.book = s.book ∨ x = .ok () ∧ ∃ account, t.book = s.book.putAccount account := by
  unfold editAccount at h
  cases x with
  | error e => exact .inl (exec_transact_error h)
  | ok _ =>
    obtain ⟨b, _, asked, run⟩ := exec_bind_ok (exec_transact_ok h)
    obtain ⟨-, rfl, rfl⟩ := exec_book_ok asked
    split at run
    · split at run
      · cases run
        exact .inl rfl
      · cases run
    · obtain ⟨changed, _, made, run⟩ := exec_bind_ok run
      obtain ⟨-, rfl⟩ := exec_ofFault_ok made
      dsimp only at run
      split at run
      · cases run
      · cases run
        exact .inr ⟨rfl, changed, rfl⟩

theorem id_of_changes {changes : List RowChange} {r changed : Row}
    (h : changes.foldlM Row.change r = .ok changed) : changed.id = r.id := by
  induction changes generalizing r with
  | nil => cases h; rfl
  | cons c cs ih =>
    rw [List.foldlM_cons] at h
    obtain ⟨next, hn, h⟩ := Except.bind_eq_ok.1 h
    rw [ih h]
    cases c <;> cases hn <;> rfl

theorem editRow_cases {changes : List RowChange} {x : Except Error Unit}
    (h : (editRow id changes).exec s = (x, t)) :
    t.book = s.book ∨ x = .ok () ∧ ∃ row changed settled : Row, s.book.row? id = some row ∧
      changes.foldlM Row.change row = .ok changed ∧ changed.over? row = some settled ∧
      t.book = s.book.putRow settled := by
  unfold editRow at h
  cases x with
  | error e => exact .inl (exec_transact_error h)
  | ok _ =>
    obtain ⟨b, _, asked, run⟩ := exec_bind_ok (exec_transact_ok h)
    obtain ⟨-, rfl, rfl⟩ := exec_book_ok asked
    split at run
    · split at run
      · cases run
        exact .inl rfl
      · cases run
    · next row found =>
      obtain ⟨changed, _, made, run⟩ := exec_bind_ok run
      obtain ⟨folded, rfl⟩ := exec_ofFault_ok made
      obtain ⟨settled, _, kept, run⟩ := exec_bind_ok run
      obtain ⟨inPlace, rfl⟩ := keepRow_ok kept
      cases run
      exact .inr ⟨rfl, row, changed, settled, found, folded, inPlace, rfl⟩

theorem deleteRow_cases {x : Except Error Unit} (h : (deleteRow id).exec s = (x, t)) :
    (x = .error (.fault .storeDown) ∧ t.book = s.book) ∨
      x = .ok () ∧ t.book = s.book.dropRow id := by
  unfold deleteRow at h
  rw [exec_bind, exec_book] at h
  cases up : s.storeUp with
  | false => rw [up] at h; cases h; exact .inl ⟨rfl, rfl⟩
  | true => rw [up] at h; cases h; exact .inr ⟨rfl, rfl⟩

/-! ## what upkeep and inquiries stay within -/

section

variable {R : Session → Session → Prop} [Session.Backdrop R]

theorem within_openAccount (a : NewAccount) : Within R (openAccount a) := by
  refine within_bind (within_ofResult _) fun _ => within_bind within_statement fun _ =>
    within_bind within_freshId fun _ => ?_
  split
  · exact within_fail _
  · dsimp only
    split
    · exact within_bind (within_fail _) fun _ => within_bind within_get fun _ =>
        within_bind (within_setBook _) fun _ => within_pure _
    · exact within_bind within_get fun _ => within_bind (within_setBook _) fun _ => within_pure _

theorem within_editAccount (id : String) (changes : List AccountChange) :
    Within R (editAccount id changes) := by
  refine within_transact (within_bind within_book fun b => ?_)
  split
  · split
    · exact within_pure _
    · exact within_fail _
  · refine within_bind (within_ofFault _) fun _ => ?_
    dsimp only
    split
    · exact within_bind (within_fail _) fun _ => within_bind within_get fun _ => within_setBook _
    · exact within_bind within_get fun _ => within_setBook _

theorem within_editRow (id : String) (changes : List RowChange) :
    Within R (editRow id changes) := by
  refine within_transact (within_bind within_book fun b => ?_)
  split
  · split
    · exact within_pure _
    · exact within_fail _
  · exact within_bind (within_ofFault _) fun _ =>
      within_bind (within_keepRow _ _) fun _ => within_pure _

theorem within_deleteRow (id : String) : Within R (deleteRow id) :=
  within_bind within_book fun _ => within_setBook _

end

section

variable {R : Session → Session → Prop} [Session.Chain R]

theorem within_paymentInfo (id : String) : Within R (paymentInfo id) :=
  within_bind within_rowFor fun _ => within_bind within_book fun _ => within_ofResult _

theorem within_group (account group : String) : Within R (Ledger.group account group) := by
  refine within_bind within_book fun _ => within_bind (within_require _ _) fun _ =>
    within_bind within_book fun _ => within_bind (within_ofFault _) fun rows => ?_
  split
  · exact within_fail _
  · exact within_ofResult _

theorem within_billingCycle (account : String) (reference : Date) :
    Within R (billingCycle account reference) := by
  refine within_bind within_book fun _ => within_bind (within_require _ _) fun _ =>
    within_bind (within_ofResult _) fun policy => ?_
  split
  · exact within_pure _
  · refine within_bind (within_ofFault _) fun cycle => ?_
    split
    · exact within_pure _
    · exact within_bind (within_ofFault _) fun _ => within_pure _

end

end Billfold.Ledger
