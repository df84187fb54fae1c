import Billfold.Proofs.Http.Failure
import Billfold.Proofs.Session.Lock

/-!
# The month that a row is billed in

As long as a card has a due day, each of its rows is stamped with the month of its own day or with
the next, and the mark and the payment date that are shown go by that stamp.

* `Row.BilledIn`        a stamp in the month of a row's day, or in the next
* `Session.IsCard`      an account that, if it is there, is a card with a due day
* `billedIn_of_take`    a step keeps the rows of such an account stamped so
* `badge_agrees`        flag, stamp, mark and payment date agree after every run
-/

namespace Billfold

/-- a stamp in the month of a row's day, or in the next; in the next if the row is deferred -/
structure Row.BilledIn (r : Row) (month : Date) : Prop where
  stamped : r.month = some month
  timed : r.lockedAt.isSome
  first : month.day = 1
  near : month.inMonth = r.date.inMonth ∨ month.inMonth = r.date.inMonth.shift 1
  later : r.deferred = true → month.inMonth = r.date.inMonth.shift 1

def Session.IsCard (s : Session) (account : String) : Prop :=
  ∀ a, s.book.account? account = some a → ∃ p day, a.policy = .ok (some p) ∧ p.dueDay = some day

namespace Row

variable {r old settled : Row} {month due : Date} {p : Policy} {day : DueDay}

theorem BilledIn.of_due (hp : p.dueDay = some day)
    (decided : resolveDue (some p) ⟨r.date, r.deferred, none⟩ = .ok (some due))
    {time : Instant} (lock : r.lock = (some due.firstOfMonth, some time)) :
    r.BilledIn due.firstOfMonth := by
  have stamped : r.month = some due.firstOfMonth := congrArg Prod.fst lock
  have timed : r.lockedAt.isSome := by
    rw [show r.lockedAt = some time from congrArg Prod.snd lock]
    rfl
  have month := inMonth_of_resolveDue hp decided
  refine ⟨stamped, timed, rfl, ?_, fun deferred => ?_⟩
  · rw [Date.inMonth_firstOfMonth, month]
    split
    · exact .inr rfl
    · exact .inl (Month.shift_zero _)
  · rw [Date.inMonth_firstOfMonth, month, if_pos (.inl deferred)]

theorem BilledIn.congr (h : old.BilledIn month) (date : r.date = old.date)
    (deferred : r.deferred = old.deferred) (lock : r.lock = old.lock) : r.BilledIn month := by
  have stamp : r.month = old.month := congrArg Prod.fst lock
  have time : r.lockedAt = old.lockedAt := congrArg Prod.snd lock
  refine ⟨stamp.trans h.stamped, time ▸ h.timed, h.first, ?_, ?_⟩
  · rw [date]
    exact h.near
  · rw [date, deferred]
    exact h.later

end Row

namespace Session

open Act

variable {s : Session} {step : Step} {id account : String} {r old : Row} {month : Date}

theorem StampsNew.billedIn (h : s.StampsNew r) (card : s.IsCard r.account) :
    ∃ month, r.BilledIn month := by
  obtain ⟨a, policy, stamp, found, told, decided, lock, -⟩ := h.lock
  obtain ⟨p, day, told', hp⟩ := card a found
  rw [told] at told'
  cases told'
  rcases stampFor_cases decided with ⟨none, -⟩ | ⟨p', day', due, e, hp', due_eq, rfl⟩
  · exact nomatch hp.symm.trans none
  · cases e
    exact ⟨_, .of_due hp' due_eq lock⟩

theorem StampsAnew.billedIn (h : s.StampsAnew step old r) : ∃ month, r.BilledIn month := by
  obtain ⟨a, p, day, due, -, -, -, hp, due_eq, lock⟩ := h.lock
  rw [← h.date] at due_eq
  exact ⟨_, .of_due hp due_eq lock⟩

theorem KeepsStamp.billedIn (h : s.KeepsStamp old r) (card : s.IsCard old.account)
    (date : r.date = old.date) (billed : old.BilledIn month) : r.BilledIn month := by
  rcases h.flag with same | ⟨policy, told, none⟩
  · exact billed.congr date same h.lock
  · unfold Book.policyOf at told
    split at told
    · next a found =>
      obtain ⟨p, day, told', hp⟩ := card a found
      rw [told] at told'
      cases told'
      exact nomatch hp.symm.trans none
    · cases told

/-- **A step keeps the rows of a card stamped near their day**, unless columns are set by hand. -/
theorem billedIn_of_take (h : s.Reachable) (card : s.IsCard account)
    (byHand : ∀ id changes, step ≠ .editRow id changes)
    (before : ∀ old, s.book.row? id = some old → old.account = account →
      ∃ month, old.BilledIn month)
    (after : (s.take step).2.book.row? id = some r) (ours : r.account = account) :
    ∃ month, r.BilledIn month := by
  subst ours
  cases there : s.book.row? id with
  | none => exact (stampsNew_of_take h there after).billedIn card
  | some old =>
    rcases take_remade h step there with same | ⟨done, does, remade⟩
    · rw [same] at after
      cases after
      exact before _ there rfl
    rw [after] at remade
    have wall : old.IsWall := h.numbered.wall old (Book.mem_of_row? there)
    cases remade with
    | kept => exact before _ there rfl
    | edited made inPlace =>
      cases does with
      | itself own => exact absurd rfl (byHand _ _)
      | asked asked =>
        rcases Http.Request.step?_cases asked with ⟨_, e⟩ | ⟨_, _, e⟩ | ⟨_, e⟩ | ⟨_, e⟩ <;> cases e
    | revised asked revised =>
      have settles := revised.settles
      have lock := lock_of_settles settles rfl rfl wall
      obtain ⟨month, billed⟩ := before old there settles.account.symm
      exact ⟨month, billed.congr settles.date settles.deferred lock⟩
    | updated updated =>
      obtain ⟨account, date⟩ := updated.keeps
      obtain ⟨month, billed⟩ := before old there account.symm
      have here := Book.id_of_row? there
      subst here
      rcases keeps_or_anew_of_updated does wall updated with keeps | anew
      · exact ⟨month, keeps.billedIn (account ▸ card) date billed⟩
      · exact anew.billedIn

/-! ## what is shown -/

/-- **The mark and the payment date go by the stamp:** the date lies in the stamped month, and the
mark says whether that is later than the row's own. -/
theorem info_of_billedIn {b : Book} {info : Info} {p : Policy} {day : DueDay}
    (told : b.policyOf r = .ok (some p)) (hp : p.dueDay = some day) (billed : r.BilledIn month)
    (h : b.info r = .ok info) :
    ∃ due, info.due = some due ∧ due.inMonth = month.inMonth ∧
      (info.badge = true ↔ r.date.inMonth < due.inMonth) := by
  unfold Book.info at h
  obtain ⟨policy, asked, h⟩ := Except.bind_eq_ok.1 h
  rw [told] at asked
  cases asked
  obtain ⟨e, read, h⟩ := Except.bind_eq_ok.1 h
  obtain ⟨due, shown, h⟩ := Except.bind_eq_ok.1 h
  have charge := Row.charge_of_entry (Except.liftFault_eq_ok.1 read)
  rw [charge, billed.stamped] at shown h
  cases h
  have bound : (some p).bind Policy.dueDay = some day := hp
  unfold shownDue at shown
  simp only [bound] at shown
  cases shown
  have month_eq : (day.inMonthOf month).inMonth = month.inMonth := day.inMonth_inMonthOf month
  refine ⟨_, rfl, month_eq, ?_⟩
  rw [month_eq]
  show showsBadge (some p) ⟨r.date, r.deferred, some month⟩ = true ↔ _
  unfold showsBadge
  cases deferred : r.deferred with
  | true =>
    rw [billed.later deferred]
    exact ⟨fun _ => Month.lt_shift_one _, fun _ => rfl⟩
  | false =>
    simp only [hp]
    exact decide_eq_true_iff

/-- **Flag, stamp, mark and payment date agree**, after every run in which an account is a card with
a due day all along and no column of a row is set by hand: each row of it is stamped with the first
of the month of its day or the next, the next if it is deferred; and where its payment date is told,
it lies in the stamped month, and the row is marked exactly if that is later than its own. -/
theorem badge_agrees (account : String)
    (h : s.ReachableBy fun u step => u.IsCard account ∧ ∀ id changes, step ≠ .editRow id changes)
    (card : s.IsCard account) (hr : r ∈ s.book.rows) (ours : r.account = account) :
    ∃ month, r.BilledIn month ∧
      ∀ info, (s.take (.paymentInfo r.id)).1.result = .ok (.info info) →
        ∃ due, info.due = some due ∧ due.inMonth = month.inMonth ∧
          (info.badge = true ↔ r.date.inMonth < due.inMonth) := by
  have found : s.book.row? r.id = some r := h.reachable.numbered.row?_eq_some.2 ⟨hr, rfl⟩
  have billed : ∃ month, r.BilledIn month := by
    clear card hr
    generalize r.id = id at found
    induction h generalizing r with
    | fresh => cases found
    | take h step may ih =>
      have before := fun old there mine => ih (r := old) mine there
      exact billedIn_of_take h.reachable may.1 may.2 before found ours
  obtain ⟨month, billed⟩ := billed
  refine ⟨month, billed, fun info told => ?_⟩
  have read := Http.exec_paymentInfo (s := { s with log := [] }) (h.reachable.storeUp found) found
  rw [result_of_map s (.paymentInfo r.id) rfl, read] at told
  obtain ⟨_, shown, e⟩ := Except.map_eq_ok.1 told
  cases e
  -- a row is only shown together with its account
  obtain ⟨policy, asked, -⟩ := Except.bind_eq_ok.1 shown
  have asked' := asked
  unfold Book.policyOf at asked'
  split at asked'
  · next a there =>
    obtain ⟨p, day, told, hp⟩ := card a (ours ▸ there)
    rw [told] at asked'
    cases asked'
    exact info_of_billedIn asked hp billed shown
  · cases asked'

/-! ## a purchase deferred after its card has changed -/

/-- the card of the purchase is due on the 20th now, and the purchase is deferred -/
def deferredPurchase : Session :=
  (firstPurchase.run [.editAccount "id-1" [.dueDay (some 20)], defer]).2

theorem isCard_of_all (h : (s.book.account? account).all fun a =>
      match a.policy with
      | .ok (some p) => p.dueDay.isSome
      | _ => false) : s.IsCard account := by
  intro a found
  rw [found, Option.all_some] at h
  split at h
  · next p told => exact ⟨p, _, told, (Option.isSome_iff_exists.1 h).choose_spec⟩
  · cases h

/-- whether an entry is told, and marked -/
def tellsMark (o : Outcome) : Bool :=
  match o.result with
  | .ok (.info info) => info.badge
  | _ => false

/-- the purchase is told with a payment date in April, and marked -/
theorem badge_agrees_deferred :
    let s := deferredPurchase
    s.ReachableBy (fun u step => u.IsCard "id-1" ∧ ∀ id changes, step ≠ .editRow id changes) ∧
      s.IsCard "id-1" ∧ ∃ r ∈ s.book.rows, r.account = "id-1" ∧ ∃ month info due,
        r.BilledIn month ∧ (s.take (.paymentInfo r.id)).1.result = .ok (.info info) ∧
        info.due = some due ∧ due.inMonth = month.inMonth ∧ r.date.inMonth < due.inMonth := by
  intro s
  have reachable : s.ReachableBy
      (fun u step => u.IsCard "id-1" ∧ ∀ id changes, step ≠ .editRow id changes) := by
    have empty : ReachableBy
        (fun u step => u.IsCard "id-1" ∧ ∀ id changes, step ≠ .editRow id changes)
        (.fresh {} .info true (.midnight ((Date.of? 2024 3 5).get rfl))) := .fresh _ _ _ _
    have opened := empty.take (.openAccount .card)
      ⟨isCard_of_all (by decide +kernel), fun _ _ => Step.noConfusion⟩
    have bought := opened.take (.create (.purchase "Tea" 1))
      ⟨isCard_of_all (by decide +kernel), fun _ _ => Step.noConfusion⟩
    have edited := bought.take (.editAccount "id-1" [.dueDay (some 20)])
      ⟨isCard_of_all (by decide +kernel), fun _ _ => Step.noConfusion⟩
    exact edited.take defer ⟨isCard_of_all (by decide +kernel), fun _ _ => Step.noConfusion⟩
  have card : s.IsCard "id-1" := isCard_of_all (by decide +kernel)
  have marked : (s.book.row? "id-2").any fun r =>
      r.account == "id-1" && tellsMark (s.take (.paymentInfo r.id)).1 := by decide +kernel
  obtain ⟨r, found, marked⟩ := (Option.any_eq_true _ _).1 marked
  obtain ⟨ours, marked⟩ := Bool.and_eq_true_iff.1 marked
  have ours : r.account = "id-1" := beq_iff_eq.1 ours
  have hr := Book.mem_of_row? found
  obtain ⟨month, billed, agrees⟩ := badge_agrees "id-1" reachable card hr ours
  refine ⟨reachable, card, r, hr, ours, month, ?_⟩
  unfold tellsMark at marked
  split at marked
  · next info told =>
    obtain ⟨due, due_eq, within, badge⟩ := agrees info told
    exact ⟨info, due, billed, told, due_eq, within, badge.1 marked⟩
  · cases marked

end Session

end Billfold
