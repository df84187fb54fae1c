import Billfold.Proofs.Session.Row

/-!
# When a row is stamped

A row is stamped as it is written, and after that only by changes that turn its flag.  No later
change of its card, of the time or of the rest of the row has a part in it.

* `Session.StampsNew`     the stamp of a row that a step writes
* `Session.StampsAnew`    the stamp of a row whose flag a step turns
* `Session.KeepsStamp`    a row as a step leaves it otherwise
* `stampsNew_of_take`, `keeps_or_anew_of_take`   a step does nothing else to a stamp
* `lock_follows_flag`     nor does a run
-/

namespace Billfold

namespace Session

/-- a row is written with the stamp that the policy of its account decides at the time for its day
and flag; a policy without a due day decides none -/
structure StampsNew (s : Session) (r : Row) : Prop where
  lock : ∃ account policy stamp, s.book.account? r.account = some account ∧
    account.policy = .ok policy ∧ stampFor policy ⟨r.date, r.deferred, none⟩ s.clock = .ok stamp ∧
    r.lock = keptLock stamp ∧ (stamp = none ↔ policy.bind Policy.dueDay = none)

/-- a row is given another flag, and the stamp that goes with it at the time; everything else that
decides a stamp stays -/
structure StampsAnew (s : Session) (step : Step) (old r : Row) : Prop where
  asked : ∃ c, Does step (.update old.id c) ∧ c.deferred = some r.deferred
  flag : r.deferred ≠ old.deferred
  date : r.date = old.date
  account : r.account = old.account
  lock : ∃ account p day due, s.book.account? old.account = some account ∧
    account.kind = Policy.cardKind ∧ account.policy = .ok (some p) ∧ p.dueDay = some day ∧
    resolveDue (some p) ⟨old.date, r.deferred, none⟩ = .ok (some due) ∧
    r.lock = (some due.firstOfMonth, some s.clock.wall)

/-- a row keeps its stamp; it may be given another flag only under a policy without a due day -/
structure KeepsStamp (s : Session) (old r : Row) : Prop where
  lock : r.lock = old.lock
  flag : r.deferred = old.deferred ∨
    ∃ policy, s.book.policyOf old = .ok policy ∧ policy.bind Policy.dueDay = none

variable {s : Session} {step done : Step} {id : String} {r old : Row}

theorem KeepsStamp.refl (s : Session) (r : Row) : s.KeepsStamp r r := ⟨rfl, .inl rfl⟩

/-! ## one step -/

theorem lock_of_settles {made settled : Row} (h : made.Settles settled)
    (month : made.month = old.month) (lockedAt : made.lockedAt = old.lockedAt)
    (wall : old.IsWall) : settled.lock = old.lock := by
  unfold Row.lock
  rw [h.month, h.lockedAt, month, lockedAt, wall]

theorem stampsNew_of_created {e : NewEntry} {rows : List Row} (created : Ledger.Created s e rows)
    (hr : r ∈ rows) : s.StampsNew r := by
  obtain ⟨account, policy, entries, there, told, -, asked, written⟩ := created.written
  obtain ⟨c, hc, k, stamp, -, decided, kept⟩ := written.exists_of_mem hr
  have settles := Row.settles_of_settled? kept
  have hc := asked c hc
  have account_eq : r.account = account.id := by
    rw [settles.account, Row.account_stampedBy, Book.id_of_account? there]
    exact hc.account
  have date : r.date = c.date := by rw [settles.date, Row.date_stampedBy]; rfl
  have deferred : r.deferred = c.deferred := by rw [settles.deferred, Row.deferred_stampedBy]; rfl
  have decided := stampFor_of_stamp decided
  refine ⟨account, policy, stamp, ?_, told, ?_, ?_, ?_⟩
  · rw [account_eq, Book.id_of_account? there]
    exact there
  · rw [date, deferred]
    exact decided
  · rw [settles.lock]
    cases stamp with
    | some stamp => rfl
    | none =>
      -- an entry comes without a stamp of its own, so none is kept where none is decided
      show (c.month, c.lockedAt.map Instant.wall) = _
      rw [hc.month, hc.lockedAt]
      rfl
  · rcases stampFor_cases decided with ⟨none, rfl⟩ | ⟨p, day, due, rfl, hp, -, rfl⟩
    · exact ⟨fun _ => none, fun _ => rfl⟩
    · exact ⟨fun h => (nomatch h), fun h => nomatch hp.symm.trans h⟩

/-- what changes make of a row keeps its stamp, or turns its flag and stamps it anew -/
theorem keeps_or_anew_of_updated {c : Changes} {settled : Row}
    (asked : Does step (.update old.id c)) (wall : old.IsWall)
    (h : old.Updated s.book s.clock c settled) :
    s.KeepsStamp old settled ∨ s.StampsAnew step old settled := by
  cases h with
  | @kept edited _ edit flag inPlace =>
    have settles := Row.settles_of_over? inPlace
    refine .inl ⟨lock_of_settles settles ?_ ?_ wall, .inl (settles.deferred.trans flag)⟩
    · rw [Row.eq_of_edit edit]
    · rw [Row.eq_of_edit edit]
  | @relocked edited _ policy stamp edit flag told decided inPlace =>
    have settles := Row.settles_of_over? inPlace
    have account : edited.account = old.account := by rw [Row.eq_of_edit edit]
    have date : edited.date = old.date := by rw [Row.eq_of_edit edit]
    have deferred : settled.deferred = edited.deferred := by
      rw [settles.deferred, Row.deferred_stampedBy]
    rcases stampFor_cases (stampFor_of_stamp decided) with
      ⟨none, rfl⟩ | ⟨p, day, due, rfl, hp, due_eq, rfl⟩
    · refine .inl ⟨lock_of_settles settles ?_ ?_ wall, .inr ⟨policy, ?_, none⟩⟩
      · show edited.month = _
        rw [Row.eq_of_edit edit]
      · show edited.lockedAt = _
        rw [Row.eq_of_edit edit]
      · unfold Book.policyOf at told ⊢
        rwa [account] at told
    · obtain ⟨a, found, told, kind⟩ := Book.card_of_policyOf told
      rw [account] at found
      rw [date, ← deferred] at due_eq
      refine .inr ⟨⟨c, asked, ?_⟩, ?_, ?_, ?_, ?_⟩
      · cases given : c.deferred with
        | none =>
          refine absurd ?_ flag
          rw [Row.eq_of_edit edit, given]
          rfl
        | some given' =>
          rw [deferred, Row.eq_of_edit edit, given]
          rfl
      · rw [deferred]
        exact flag
      · rw [settles.date, Row.date_stampedBy, date]
      · rw [settles.account, Row.account_stampedBy, account]
      · exact ⟨a, p, day, due, found, kind, told, hp, due_eq, settles.lock⟩

theorem keeps_or_anew_of_remade (does : Does step done) (wall : old.IsWall) (here : old.id = id)
    (remade : s.Remade id old done (some r)) (untouched : ¬ step.Touches id) :
    s.KeepsStamp old r ∨ s.StampsAnew step old r := by
  cases remade with
  | kept => exact .inl (.refl s _)
  | edited made inPlace => exact absurd (does.touches rfl) untouched
  | updated updated =>
    subst here
    exact keeps_or_anew_of_updated does wall updated
  | revised asked revised =>
    have settles := revised.settles
    exact .inl ⟨lock_of_settles settles rfl rfl wall, .inl settles.deferred⟩

/-! ## a run -/

/-- a step gives the row with an id its stamp: it writes the row, or stamps it anew -/
inductive Stamps (s : Session) (step : Step) (id : String) (r : Row) : Prop
  | new (absent : s.book.row? id = none) (after : (s.take step).2.book.row? id = some r)
      (stamps : s.StampsNew r)
  | anew {old : Row} (before : s.book.row? id = some old)
      (after : (s.take step).2.book.row? id = some r) (stamps : s.StampsAnew step old r)

/-- **A row that a step writes has the stamp of its card at the time.** -/
theorem stampsNew_of_take (h : s.Reachable) (absent : s.book.row? id = none)
    (after : (s.take step).2.book.row? id = some r) : s.StampsNew r := by
  obtain ⟨e, plan, rows, -, drafted, hr, -⟩ := take_new h step absent after
  exact stampsNew_of_created drafted.created hr

/-- **A row that is there keeps its stamp, or is stamped anew with its flag.** -/
theorem keeps_or_anew_of_take (h : s.Reachable) (before : s.book.row? id = some old)
    (after : (s.take step).2.book.row? id = some r) (untouched : ¬ step.Touches id) :
    s.KeepsStamp old r ∨ s.StampsAnew step old r := by
  have wall : old.IsWall := h.numbered.wall old (Book.mem_of_row? before)
  rcases take_remade h step before with same | ⟨done, does, remade⟩
  · rw [same] at after
    cases after
    exact .inl (.refl s _)
  · rw [after] at remade
    exact keeps_or_anew_of_remade does wall (Book.id_of_row? before) remade untouched

theorem stamped_in_run (h : s.Reachable) {steps : List Step}
    (untouched : ∀ step ∈ steps, ¬ step.Touches id)
    (after : (s.run steps).2.book.row? id = some r) :
    (∃ first step rest stamped, steps = first ++ step :: rest ∧
      (s.run first).2.Stamps step id stamped ∧ r.lock = stamped.lock) ∨
    ∃ old, s.book.row? id = some old ∧ r.lock = old.lock := by
  induction steps generalizing s with
  | nil => exact .inr ⟨r, after, rfl⟩
  | cons step steps ih =>
    have others : ∀ next ∈ steps, ¬ next.Touches id :=
      fun next hn => untouched next (List.mem_cons_of_mem _ hn)
    rcases ih (h.take step) others after with
      ⟨first, next, rest, stamped, rfl, stamps, lock⟩ | ⟨middle, there, lock⟩
    · exact .inl ⟨step :: first, next, rest, stamped, rfl, stamps, lock⟩
    · -- the row is as the first step left it: new, stamped anew, or as it was
      cases before : s.book.row? id with
      | none =>
        have new := Stamps.new before there (stampsNew_of_take h before there)
        exact .inl ⟨[], step, steps, middle, rfl, new, lock⟩
      | some old =>
        rcases keeps_or_anew_of_take h before there (untouched step List.mem_cons_self) with
          keeps | anew
        · exact .inr ⟨old, rfl, lock.trans keeps.lock⟩
        · exact .inl ⟨[], step, steps, middle, rfl, .anew before there anew, lock⟩

/-- **A stamp follows the flag of its row and nothing else.**  A row is stamped by its card and the
time as it is written; a step after that keeps the stamp, or turns the flag and stamps the row anew;
and the stamp after a run is the one that was there, or was given so by a step of the run.  Rows
whose columns are set by hand are left aside. -/
theorem lock_follows_flag (h : s.Reachable) (step : Step) (id : String) :
    (∀ r, s.book.row? id = none → (s.take step).2.book.row? id = some r → s.StampsNew r) ∧
    (∀ old r, s.book.row? id = some old → (s.take step).2.book.row? id = some r →
      ¬ step.Touches id → s.KeepsStamp old r ∨ s.StampsAnew step old r) ∧
    (∀ steps r, (∀ step ∈ steps, ¬ step.Touches id) → (s.run steps).2.book.row? id = some r →
      (∃ first step rest stamped, steps = first ++ step :: rest ∧
        (s.run first).2.Stamps step id stamped ∧ r.lock = stamped.lock) ∨
      ∃ old, s.book.row? id = some old ∧ r.lock = old.lock) :=
  ⟨fun _ absent after => stampsNew_of_take h absent after,
    fun _ _ before after untouched => keeps_or_anew_of_take h before after untouched,
    fun _ _ untouched after => stamped_in_run h untouched after⟩

/-! ## a purchase billed later -/

/-- three weeks on, in a place two hours east, and the card is now due on the 20th -/
def movedCard : Session :=
  let now : Instant := ⟨(Date.of? 2024 3 28).get rfl, 9, 30, 0, 0, some ⟨false, 7200⟩⟩
  (firstPurchase.run [.setClock now, .editAccount "id-1" [.dueDay (some 20)]]).2

/-- the purchase is to be billed later -/
def defer : Step := .update "id-2" ⟨none, .value .null, some true, .null, true⟩

/-- the flag of the purchase is turned, and the stamp moves to the month and the time of now -/
theorem lock_follows_flag_deferred :
    movedCard.Reachable ∧ ¬ defer.Touches "id-2" ∧ ∃ old r,
      movedCard.book.row? "id-2" = some old ∧ (movedCard.take defer).2.book.row? "id-2" = some r ∧
      movedCard.StampsAnew defer old r := by
  have reachable : movedCard.Reachable := reachable_firstPurchase.run _
  have before : (movedCard.book.row? "id-2").map Row.month = some (Date.of? 2024 3 1) := by
    decide +kernel
  have after : ((movedCard.take defer).2.book.row? "id-2").map Row.month =
      some (Date.of? 2024 4 1) := by decide +kernel
  obtain ⟨old, found, old_month⟩ := Option.map_eq_some_iff.1 before
  obtain ⟨r, found', new_month⟩ := Option.map_eq_some_iff.1 after
  refine ⟨reachable, not_false, old, r, found, found', ?_⟩
  rcases (lock_follows_flag reachable defer "id-2").2.1 old r found found' not_false with
    keeps | anew
  · have same : r.month = old.month := congrArg Prod.fst keeps.lock
    rw [new_month, old_month] at same
    exact absurd same (by decide)
  · exact anew

end Session

end Billfold
