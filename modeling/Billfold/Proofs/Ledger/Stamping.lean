import Billfold.Ledger.Stamping
import Billfold.Proofs.Book.Numbered
import Billfold.Proofs.Card.Cycle
import Billfold.Proofs.Ledger.Exec

/-!
# What a stamp is

A stamp is decided by the policy, the day and the flag of a charge and the time; the stamp that a
row has already is left aside.

* `Row.lock`, `keptLock`      month and time of a row's stamp, and what the book keeps of a stamp
* `Row.stampedBy`             a row with the stamp that was decided, if one was
* `stampFor_of_stamp`         the stamp of a row is that of its day and flag
* `stampRow_cases`            stamping a row gives it that stamp and leaves the book as it was
-/

namespace Billfold

def Row.lock (r : Row) : Option Date × Option Instant := (r.month, r.lockedAt)

def keptLock : Option Stamp → Option Date × Option Instant
  | none => (none, none)
  | some stamp => (some stamp.month, some stamp.lockedAt.wall)

namespace Row

def stampedBy (r : Row) : Option Stamp → Row
  | none => r
  | some stamp => r.stamped stamp

section
variable (r : Row) (stamp : Option Stamp)

theorem id_stampedBy : (r.stampedBy stamp).id = r.id := by cases stamp <;> rfl
theorem account_stampedBy : (r.stampedBy stamp).account = r.account := by cases stamp <;> rfl
theorem date_stampedBy : (r.stampedBy stamp).date = r.date := by cases stamp <;> rfl
theorem deferred_stampedBy : (r.stampedBy stamp).deferred = r.deferred := by cases stamp <;> rfl
theorem amount_stampedBy : (r.stampedBy stamp).amount = r.amount := by cases stamp <;> rfl

end

/-- the stamp of a stored row is the one that was decided, or else the one it had -/
theorem Settles.lock {r settled : Row} {stamp : Option Stamp}
    (h : (r.stampedBy stamp).Settles settled) :
    settled.lock =
      if stamp.isSome then keptLock stamp else (r.month, r.lockedAt.map Instant.wall) := by
  unfold Row.lock
  rw [h.month, h.lockedAt]
  cases stamp with
  | none => rfl
  | some stamp => rfl

theorem charge_of_entry {r : Row} {e : Entry} (h : r.entry = .ok e) :
    e.charge = ⟨r.date, r.deferred, r.month⟩ := by
  unfold entry at h
  obtain ⟨extra, -, h⟩ := Except.bind_eq_ok.1 h
  obtain ⟨amount, -, h⟩ := Except.bind_eq_ok.1 h
  cases h
  rfl

theorem id_of_entry {r : Row} {e : Entry} (h : r.entry = .ok e) : e.id = some r.id := by
  unfold entry at h
  obtain ⟨extra, -, h⟩ := Except.bind_eq_ok.1 h
  obtain ⟨amount, -, h⟩ := Except.bind_eq_ok.1 h
  cases h
  rfl

end Row

/-! ## what decides a stamp -/

variable {policy : Option Policy} {now : Instant} {stamp : Option Stamp} {r : Row}

-- the month of an earlier stamp stands in the charge, and nothing that decides a stamp reads it
theorem stampFor_of_stamp (h : r.stamp policy now = .ok stamp) :
    stampFor policy ⟨r.date, r.deferred, none⟩ now = .ok stamp := by
  unfold Row.stamp at h
  obtain ⟨e, he, h⟩ := Except.bind_eq_ok.1 h
  rw [Row.charge_of_entry he] at h
  exact h

/-- only a card has a policy to ask -/
theorem Book.card_of_policyOf {b : Book} {p : Policy} (h : b.policyOf r = .ok (some p)) :
    ∃ a, b.account? r.account = some a ∧ a.policy = .ok (some p) ∧ a.kind = Policy.cardKind := by
  unfold policyOf at h
  split at h
  · next a found =>
    refine ⟨a, found, h, ?_⟩
    unfold Account.policy Policy.ofAccount at h
    split at h
    · next kind => exact kind
    · cases h
  · cases h

/-! ## stamping -/

open Act

/-- **A row is given the stamp that the policy decides, or a fault says why none was decided.** -/
theorem stampRow_cases {reason : StampReason} {s t : Session} {x : Except Error Row}
    (h : (Ledger.stampRow policy r reason).exec s = (x, t)) :
    s.Quiet t ∧ ((∃ f, r.stamp policy s.clock = .error f ∧ x = .error (.fault f)) ∨
      ∃ stamp, r.stamp policy s.clock = .ok stamp ∧ x = .ok (r.stampedBy stamp)) := by
  unfold Ledger.stampRow at h
  simp only [exec_bind, exec_get, exec_ofFault] at h
  cases hs : r.stamp policy s.clock with
  | error f =>
    rw [hs] at h
    cases h
    exact ⟨Session.Chain.refl s, .inl ⟨f, rfl, rfl⟩⟩
  | ok stamp =>
    rw [hs] at h
    cases stamp with
    | none =>
      simp only [Except.liftFault, exec_bind] at h
      obtain ⟨u, hc, quiet⟩ := exec_count (.stamps .skipped) 1 s
      rw [hc] at h
      cases h
      exact ⟨quiet, .inr ⟨none, rfl, rfl⟩⟩
    | some stamp =>
      simp only [Except.liftFault, exec_bind] at h
      obtain ⟨u, hc, quiet⟩ := exec_count (.stamps reason) 1 s
      obtain ⟨v, hn, quiet'⟩ := exec_note .debug "Billing cycle locked"
        (stampFields r.id stamp reason) u
      simp only [hc, hn] at h
      cases h
      exact ⟨Session.Chain.trans quiet quiet', .inr ⟨some stamp, rfl, rfl⟩⟩

theorem within_stampRow {R : Session → Session → Prop} [Session.Backdrop R]
    {reason : StampReason} (skips : Session.Allows R (.stamps .skipped))
    (stamps : Session.Allows R (.stamps reason)) (policy : Option Policy) (r : Row) :
    Within R (Ledger.stampRow policy r reason) := by
  refine within_bind within_get fun _ => within_bind (within_ofFault _) fun stamp => ?_
  cases stamp with
  | none => exact within_bind (within_count skips 1) fun _ => within_pure _
  | some stamp =>
    exact within_bind (within_count stamps 1) fun _ =>
      within_bind (within_note _ _ _) fun _ => within_pure _

end Billfold
