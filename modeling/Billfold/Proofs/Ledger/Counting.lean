import Billfold.Proofs.Ledger.Apart
import Billfold.Proofs.Ledger.Direction
import Billfold.Proofs.Ledger.Upkeep

/-!
# What operations count

Something is counted in the middle of an operation, and the book may still be given back after that.
What is counted is told here by what the operation comes to, and by what it makes of the book.

* `Session.Leaves`       a counter is as it was
* `counts_recorded`      resolutions are counted as they are carried out
* `Session.restamped`    a row bears a new stamp, with another flag than before
* `counts_update`        stamps are counted as they are put into the book
-/

namespace Billfold

open Act

def Session.Leaves (c : Counter) (s t : Session) : Prop :=
  t.counters.count c = s.counters.count c

instance (c : Counter) : Session.Backdrop (Session.Leaves c) where
  refl _ := rfl
  trans h k := Eq.trans k h
  book _ _ := rfl
  named _ := rfl
  grouped _ := rfl
  refusing _ _ := rfl
  logged _ _ := rfl

theorem Session.allows_leaves {c d : Counter} (ne : c ≠ d) : Session.Allows (Session.Leaves c) d :=
  fun s n => Counters.count_add_of_ne n s.counters ne

namespace Act

variable {α β : Type} {s t : Session}

theorem counters_note (level : Level) (message : String) (fields : Fields) (s : Session) :
    ((note level message fields).exec s).2.counters = s.counters := by
  show (if _ then _ else _ : Session).counters = _
  split <;> rfl

/-- a chain whose first step stays within a relation fails there within it, or goes on from there -/
theorem exec_bind_within {R : Session → Session → Prop} {act : Act α} {next : α → Act β}
    {r : Except Error β} (within : Within R act) (h : (act >>= next).exec s = (r, t)) :
    (∃ e, r = .error e ∧ R s t) ∨
      ∃ a u, act.exec s = (.ok a, u) ∧ R s u ∧ (next a).exec u = (r, t) := by
  rcases exec_bind_cases h with ⟨e, failed, rfl⟩ | ⟨a, u, done, run⟩
  · exact .inl ⟨e, rfl, within.of_exec failed⟩
  · exact .inr ⟨a, u, done, within.of_exec done, run⟩

end Act

namespace Ledger

variable {s t : Session} {id : String}

/-! ## resolutions -/

theorem counters_recordResolution (request : Option String) (id : String) (how : Resolution)
    (posted : Option String) (s : Session) :
    ((recordResolution request id how posted).exec s).2.counters =
      s.counters.add (.resolutions how) 1 :=
  counters_note .info _ _ { s with counters := s.counters.add (.resolutions how) 1 }

theorem counts_recorded {α : Type} {act : Act α} {request : Option String} {how : Resolution}
    {posted : α → Option String} {x : Except Error α}
    (leaves : Within (Session.Leaves (.resolutions how)) act)
    (h : (recorded act request id how posted).exec s = (x, t)) :
    t.counters.count (.resolutions how) =
      s.counters.count (.resolutions how) + if x.isOk then 1 else 0 := by
  unfold recorded at h
  rcases exec_bind_within leaves h with ⟨e, rfl, left⟩ | ⟨a, u, -, left, run⟩
  · exact left
  obtain ⟨v, told, -⟩ := exec_recordResolution request id how (posted a) u
  rw [exec_bind_of_ok told] at run
  cases run
  have counters := counters_recordResolution request id how (posted a) u
  rw [told] at counters
  rw [counters, Counters.count_add_self, left]
  rfl

/-! ## stamps -/

theorem counts_stampRow {policy : Option Policy} {r : Row} {reason : StampReason}
    {x : Except Error Row} (h : (stampRow policy r reason).exec s = (x, t)) :
    ((∃ e, x = .error e) ∧ s.Leaves (.stamps .relock) t) ∨
      ∃ stamp, r.stamp policy s.clock = .ok stamp ∧ x = .ok (r.stampedBy stamp) ∧ s.Quiet t ∧
        t.counters.count (.stamps .relock) = s.counters.count (.stamps .relock) +
          if reason = .relock ∧ stamp.isSome then 1 else 0 := by
  obtain ⟨quiet, ⟨f, failed, rfl⟩ | ⟨stamp, decided, rfl⟩⟩ := stampRow_cases h
  · refine .inl ⟨⟨_, rfl⟩, ?_⟩
    unfold stampRow at h
    rw [exec_bind_of_ok (exec_get s), exec_bind, exec_ofFault, failed] at h
    cases h
    rfl
  refine .inr ⟨stamp, decided, rfl, quiet, ?_⟩
  unfold stampRow at h
  rw [exec_bind_of_ok (exec_get s), exec_bind, exec_ofFault, decided] at h
  cases stamp with
  | none =>
    cases h
    have other : Counter.stamps .relock ≠ .stamps .skipped := by decide
    rw [if_neg fun both => nomatch both.2]
    exact Counters.count_add_of_ne 1 s.counters other
  | some stamp =>
    have counters : t.counters = s.counters.add (.stamps reason) 1 := by
      have noted := counters_note .debug "Billing cycle locked" (stampFields r.id stamp reason)
        { s with counters := s.counters.add (.stamps reason) 1 }
      refine Eq.trans ?_ noted
      exact (congrArg (fun run => run.2.counters) h).symm
    rw [counters]
    by_cases relock : reason = .relock
    · subst relock
      exact Counters.count_add_self _ _ _
    · rw [if_neg fun both => relock both.1]
      refine Counters.count_add_of_ne 1 s.counters fun same => ?_
      cases same
      exact relock rfl

end Ledger

/-- whether a row takes the place of one with another flag, and bears the stamp that the policy of
its account decides at the time -/
def Session.restamped (s : Session) (old now : Row) : Bool :=
  now.deferred != old.deferred &&
    match s.book.policyOf now with
    | .ok policy =>
      match stampFor policy ⟨now.date, now.deferred, none⟩ s.clock with
      | .ok (some stamp) => now.lock == keptLock (some stamp)
      | _ => false
    | .error _ => false

theorem Amount.number_of_signed {x y : Decimal} {nature : Json}
    (h : (Amount.decimal x).signed nature = .ok y) : y.isNaN = false := by
  obtain ⟨named, z, -, read, signed⟩ := sign_of_signed h
  have finite := isFinite_of_finite read
  cases z with
  | finite negative m e =>
    cases named with
    | inflow =>
      obtain ⟨n, f, rfl, -⟩ := Decimal.fit_ok signed
      rfl
    | outflow =>
      cases signed
      rfl
  | infinite => cases finite
  | nan => cases finite

namespace Row

variable {row edited settled : Row} {c : Changes} {b : Book} {now : Instant}

theorem number_of_edit (h : row.edit c = .ok edited) (number : row.amount.isNaN = false) :
    edited.amount.isNaN = false := by
  have changed := amount_of_edit h
  unfold editAmount at changed
  split at changed
  · rw [← Except.ok.inj changed]
    exact number
  dsimp only at changed
  obtain ⟨given, -, changed⟩ := Except.bind_eq_ok.1 changed
  obtain ⟨magnitude, -, changed⟩ := Except.bind_eq_ok.1 changed
  split at changed
  · exact Amount.number_of_signed changed
  · obtain ⟨side, -, changed⟩ := Except.bind_eq_ok.1 changed
    exact Amount.number_of_signed changed

theorem over?_of_number (number : edited.amount.isNaN = false) (old : Row) :
    ∃ settled, edited.over? old = some settled := by
  obtain ⟨y, back⟩ := settle?_of_number number
  unfold over? settled?
  rw [back]
  exact ⟨_, rfl⟩

end Row

namespace Ledger

variable {s t : Session} {id : String} {row edited settled : Row} {c : Changes}

theorem not_restamped (flag : settled.deferred = row.deferred) :
    s.restamped row settled = false := by
  unfold Session.restamped
  rw [flag, bne_self_eq_false]
  rfl

/-- a row whose flag is turned bears a new stamp exactly if one was decided -/
theorem restamped_eq {policy : Option Policy} {stamp : Option Stamp}
    (flag : edited.deferred ≠ row.deferred)
    (asked : s.book.policyOf edited = .ok policy)
    (decided : edited.stamp policy s.clock = .ok stamp)
    (inPlace : (edited.stampedBy stamp).over? row = some settled) :
    s.restamped row settled = stamp.isSome := by
  have settles := Row.settles_of_over? inPlace
  have deferred := settles.deferred.trans (Row.deferred_stampedBy edited stamp)
  have date := settles.date.trans (Row.date_stampedBy edited stamp)
  have account := settles.account.trans (Row.account_stampedBy edited stamp)
  have policy_eq : s.book.policyOf settled = .ok policy := by
    unfold Book.policyOf at asked ⊢
    rw [account]
    exact asked
  have turned : (settled.deferred != row.deferred) = true := by
    rw [deferred]
    exact bne_iff_ne.2 flag
  unfold Session.restamped
  rw [turned, policy_eq, date, deferred]
  simp only [stampFor_of_stamp decided, Bool.true_and]
  cases stamp with
  | none => rfl
  | some stamp =>
    rw [settles.lock]
    exact beq_self_eq_true _

-- a stamp is counted before its row is put into the book, which would fail for an amount that is no
-- number
theorem counts_keepEdited {x : Except Error Row} (edit : row.edit c = .ok edited)
    (number : row.amount.isNaN = false) (h : (keepEdited row edited).exec s = (x, t)) :
    ((∃ e, x = .error e) ∧ s.Leaves (.stamps .relock) t) ∨
      ∃ settled, row.Updated s.book s.clock c settled ∧ x = .ok settled ∧
        t.book = s.book.putRow settled ∧
        t.counters.count (.stamps .relock) =
          s.counters.count (.stamps .relock) + (s.restamped row settled).toNat := by
  have number := Row.number_of_edit edit number
  unfold keepEdited at h
  split at h
  · next differ =>
    have flag : edited.deferred ≠ row.deferred := by
      intro same
      simp [needsStamp, same] at differ
    rw [exec_bind_of_ok (exec_get s)] at h
    rcases exec_bind_within (R := Session.Leaves (.stamps .relock)) (within_ofResult _) h with
      ⟨e, rfl, left⟩ | ⟨policy, _, told, -, run⟩
    · exact .inl ⟨⟨e, rfl⟩, left⟩
    obtain ⟨asked, rfl⟩ := exec_ofResult_ok told
    rcases exec_bind_cases run with ⟨e, failed, rfl⟩ | ⟨stamped, u, stamping, run⟩
    · rcases counts_stampRow failed with ⟨-, left⟩ | ⟨_, -, e, -⟩
      · exact .inl ⟨⟨e, rfl⟩, left⟩
      · cases e
    rcases counts_stampRow stamping with ⟨⟨_, e⟩, -⟩ | ⟨stamp, decided, e, quiet, counted⟩
    · cases e
    cases e
    have number : (edited.stampedBy stamp).amount.isNaN = false := by
      rw [Row.amount_stampedBy]
      exact number
    obtain ⟨settled, inPlace⟩ := Row.over?_of_number number row
    rw [exec_keepRow inPlace] at run
    cases run
    refine .inr ⟨settled, .relocked edit flag asked decided inPlace, rfl, ?_, ?_⟩
    · show u.book.putRow settled = _
      rw [quiet.book]
    · refine counted.trans ?_
      rw [restamped_eq flag asked decided inPlace]
      cases stamp <;> rfl
  · next same =>
    have same : row.deferred = edited.deferred := by simpa [needsStamp] using same
    have flag := same.symm
    obtain ⟨settled, inPlace⟩ := Row.over?_of_number number row
    rw [exec_keepRow inPlace] at h
    cases h
    refine .inr ⟨settled, .kept edit flag inPlace, rfl, rfl, ?_⟩
    rw [not_restamped ((Row.settles_of_over? inPlace).deferred.trans flag)]
    rfl

theorem counts_updateRow {x : Except Error Row}
    (number : ∀ row, s.book.row? id = some row → row.amount.isNaN = false)
    (h : (updateRow id c).exec s = (x, t)) :
    ((∃ e, x = .error e) ∧ s.Leaves (.stamps .relock) t) ∨
      ∃ row settled, s.book.row? id = some row ∧ row.Updated s.book s.clock c settled ∧
        x = .ok settled ∧ t.book = s.book.putRow settled ∧
        t.counters.count (.stamps .relock) =
          s.counters.count (.stamps .relock) + (s.restamped row settled).toNat := by
  rcases exec_bind_within (R := Session.Leaves (.stamps .relock)) within_rowFor h with
    ⟨e, rfl, left⟩ | ⟨row, _, looked, -, run⟩
  · exact .inl ⟨⟨e, rfl⟩, left⟩
  obtain ⟨-, found, rfl⟩ := rowFor_ok looked
  rcases exec_bind_within (R := Session.Leaves (.stamps .relock)) (within_ofResult _) run with
    ⟨e, rfl, left⟩ | ⟨edited, _, made, -, run⟩
  · exact .inl ⟨⟨e, rfl⟩, left⟩
  obtain ⟨edit, rfl⟩ := exec_ofResult_ok made
  rcases exec_bind_within (R := Session.Leaves (.stamps .relock)) (within_needWritable _) run with
    ⟨e, rfl, left⟩ | ⟨_, _, written, -, run⟩
  · exact .inl ⟨⟨e, rfl⟩, left⟩
  obtain ⟨-, rfl⟩ := exec_needWritable_ok written
  rcases counts_keepEdited edit (number row found) run with failed | ⟨settled, kept⟩
  · exact .inl failed
  · exact .inr ⟨row, settled, found, kept⟩

/-- changes are made and the stamp that they put into the book is counted, or neither -/
inductive UpdateCounted (s : Session) (id : String) (c : Changes) (t : Session) : Prop
  | kept (book : t.book = s.book) (left : s.Leaves (.stamps .relock) t)
  | made {row settled : Row} (found : s.book.row? id = some row)
      (updated : row.Updated s.book s.clock c settled) (put : t.book = s.book.putRow settled)
      (counted : t.counters.count (.stamps .relock) =
        s.counters.count (.stamps .relock) + (s.restamped row settled).toNat)

/-- **A stamp is counted exactly if it is put into the book** with a row whose flag was turned. -/
theorem counts_update {x : Except Error Entry}
    (number : ∀ row, s.book.row? id = some row → row.amount.isNaN = false)
    (h : (update id c).exec s = (x, t)) : UpdateCounted s id c t := by
  rw [update_eq] at h
  have kept {x : Except Error Row} (done : (transact (updateRow id c)).exec s = (x, t)) :
      UpdateCounted s id c t := by
    rcases exec_transact_cases done with ⟨_, rfl, ran⟩ | ⟨_, u, rfl, ran, rfl⟩
    · rcases counts_updateRow number ran with ⟨⟨_, e⟩, -⟩ | ⟨_, _, found, updated, -, put, counted⟩
      · cases e
      · exact .made found updated put counted
    · rcases counts_updateRow number ran with ⟨-, left⟩ | ⟨_, _, -, -, e, -⟩
      · exact .kept rfl left
      · cases e
  rcases exec_bind_cases h with ⟨e, failed, -⟩ | ⟨settled, u, done, last⟩
  · exact kept failed
  · cases last
    exact kept done

end Ledger

end Billfold
