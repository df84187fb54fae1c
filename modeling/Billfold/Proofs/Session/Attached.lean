import Billfold.Proofs.Http.Failure
import Billfold.Proofs.Session.Register

/-!
# What was attached is shown and merged

A suggestion whose own fields say what is stored of it is read of the row that it was attached to.
The row may keep a map of its own that equals the one to be written; even then the posted entry is
the one attached, since only a text spells an id.

* `Suggestion.PointsAs`   suggestions of the same entry, as sure and as open
* `Entry.TakesUp`         nothing else is kept in the place of the suggestion
* `Reads.attached`        what is read of the row afterwards
* `reason_not_taken_up`   a reason that equals the one that is stored
* `attach_targets`        what is shown and merged next
* `attached_by_map`       a suggestion whose map names another entry
-/

namespace Billfold

/-! ## equal values in metadata -/

theorem Confidence.read_of_same {x y : Json} (h : x.same y = true) : read x = read y := by
  cases y with
  | text t => rw [Json.text_of_same h]
  | _ =>
    cases x with
    | text t => cases Json.eq_text_of_same h
    | _ => rfl

namespace Suggestion

variable {x y : Json} {n : Nat} {g u : Suggestion} {raw : Fields}

theorem idOf_of_same (h : x.same y = true) (named : idOf x = numbered n) :
    idOf y = numbered n := by
  obtain ⟨t, rfl⟩ := text_of_idOf named
  rw [Json.eq_text_of_same h]
  exact named

theorem isDismissed_of_same (h : (Json.bool false).same y = true) : isDismissed y = false := by
  cases y with
  | bool b => exact (Json.same_bool h).symm
  | _ => rfl

structure PointsAs (u g : Suggestion) : Prop where
  entryId : u.entryId = g.entryId
  confidence : u.confidence = g.confidence
  dismissed : u.dismissed = g.dismissed

theorem Alike.pointsAs (h : u.Alike g) : u.PointsAs g := ⟨h.entryId, h.confidence, h.dismissed⟩

theorem Faithful.pointsAs_of_same (h : g.Faithful) (proper : (Json.object g.stored).Proper)
    (undismissed : g.dismissed = false) (named : g.entryId = numbered n)
    (same : (Json.object g.stored).same (.object raw) = true) : (ofFields raw).PointsAs g := by
  have each := Json.get_same proper same
  refine ⟨?_, ?_, ?_⟩
  · rw [named]
    exact idOf_of_same (each "entry_id") (h.entryId.trans named)
  · exact (Confidence.read_of_same (each "confidence")).symm.trans h.confidence
  · have marked := each "dismissed"
    rw [get_stored_dismissed, undismissed] at marked
    rw [undismissed]
    exact isDismissed_of_same marked

end Suggestion

namespace Entry

variable {e : Entry} {g : Suggestion} {fields : Fields} {stored : Json}

theorem Keeps.suggestion_of_same (h : e.Keeps fields) (map : Metadata.ofValue stored = .ok fields)
    (proper : (Json.object (e.attach g).writeExtra).Proper)
    (same : (Json.object (e.attach g).writeExtra).same stored = true) :
    ∃ raw : Fields, e.suggestion = some (.ofFields raw) ∧
      (Json.object g.stored).same (.object raw) = true := by
  obtain ⟨ys, rfl, -⟩ := Json.same_object same
  rw [Metadata.ofValue_object] at map
  cases map
  have free : (e.attach g).extra.get? Suggestion.key = none := h.free (by decide)
  have written : (e.attach g).writeExtra.get Suggestion.key = .object g.stored := by
    rw [Fields.get, get?_writeExtra free]
    rfl
  have equal := Json.get_same proper same Suggestion.key
  rw [written] at equal
  obtain ⟨raw, there, -⟩ := Json.same_object equal
  rw [there] at equal
  refine ⟨raw, ?_, equal⟩
  have some_field := Json.ne_nil_of_same g.stored_ne_nil equal
  rw [h.suggestion]
  unfold Suggestion.read
  rw [there]
  cases raw with
  | nil => exact absurd rfl some_field
  | cons f raw => rfl

theorem merge_attach {isPosted : String → Bool} (undismissed : g.dismissed = false)
    (named : g.entryId ≠ "") (posted : isPosted g.entryId = true) :
    (e.attach g).merge isPosted = .ok ⟨e.id, g.entryId⟩ := by
  have known : (!g.entryId.isEmpty && isPosted g.entryId) = true := by
    rw [posted, Bool.and_true, Bool.not_eq_true', ← Bool.not_eq_true, String.isEmpty_iff]
    exact named
  have target : (e.attach g).activeTarget = .ok g.entryId := by
    unfold activeTarget attach
    dsimp only
    rw [undismissed]
    rfl
  unfold merge
  rw [target]
  exact Except.bind_eq_ok.2 ⟨g.entryId, rfl, if_pos known⟩

/-- the map that the entry was read from is not kept in the place of one with the suggestion, unless
it gives the same reason and amount -/
def TakesUp (e : Entry) (g : Suggestion) (stored : Json) : Prop :=
  (Json.object (e.attach g).writeExtra).same stored = true →
    ∀ old ∈ e.suggestion, old.reason = g.reason ∧ old.postedAmount = g.postedAmount

/-- a suggestion whose reason and amount are texts, as far as it gives them, is always taken up -/
theorem Keeps.takesUp (h : e.Keeps fields) (map : Metadata.ofValue stored = .ok fields)
    (proper : (Json.object (e.attach g).writeExtra).Proper)
    (proper_g : (Json.object g.stored).Proper)
    (agrees : g.Faithful) (reason : (g.base.get "reason").IsWord)
    (amount : (g.base.get "posted_amount").IsWord) : e.TakesUp g stored := by
  intro same old given
  obtain ⟨raw, suggested, equal⟩ := h.suggestion_of_same map proper same
  cases suggested.symm.trans given
  obtain ⟨-, says_reason, -, says_amount⟩ := Suggestion.faithful_iff.1 agrees
  have each := Json.get_same proper_g equal
  have same_reason := each "reason"
  have same_amount := each "posted_amount"
  rw [Suggestion.get_stored g (by decide)] at same_reason same_amount
  constructor
  · rw [← says_reason]
    exact reason.eq_of_same same_reason
  · rw [← says_amount]
    exact congrArg Suggestion.amountOf (amount.eq_of_same same_amount)

end Entry

/-! ## a reason that equals another -/

namespace Session

/-- two more purchases -/
def threeTeas : Session :=
  (firstPurchase.run [.create (.purchase "Tea" 1), .create (.purchase "Tea" 1)]).2

/-- metadata with a suggestion of the third purchase, for a reason of one -/
def forOne : Fields :=
  [(Suggestion.key, .object [("entry_id", .text "id-4"), ("reason", .int 1),
    ("confidence", .text "medium"), ("dismissed", .bool false)])]

def suggestedForOne : Session :=
  (threeTeas.take (.editRow "id-2" [.extra (.object forOne)])).2

/-- the suggestion of the third purchase, for a reason of `true` -/
def suggestingForTrue : Suggestion := { suggesting "id-4" with reason := .bool true }

def isForOne : Json → Bool
  | .object [(k, .object [(k₁, .text t), (k₂, .int n), (k₃, .text c), (k₄, .bool false)])] =>
    decide (k = Suggestion.key ∧ (k₁ = "entry_id" ∧ t = "id-4") ∧ (k₂ = "reason" ∧ n = 1) ∧
      (k₃ = "confidence" ∧ c = "medium") ∧ k₄ = "dismissed")
  | _ => false

theorem eq_of_isForOne {x : Json} (h : isForOne x = true) : x = .object forOne := by
  unfold isForOne at h
  split at h
  · obtain ⟨rfl, ⟨rfl, rfl⟩, ⟨rfl, rfl⟩, ⟨rfl, rfl⟩, rfl⟩ := of_decide_eq_true h
    rfl
  · cases h

theorem reads_suggestedForOne :
    ∃ row e, row.extra = .object forOne ∧ suggestedForOne.Reads "id-2" row forOne e := by
  have told : (suggestedForOne.book.row? "id-2").any
      (fun row => isForOne row.extra && row.entry.toBool) = true := by decide +kernel
  obtain ⟨row, e, found, shape, read⟩ := read_of_told told
  have extra := eq_of_isForOne shape
  refine ⟨row, e, extra, (reachable_firstPurchase.run _).take _, found, ?_, ?_, read⟩
  · rw [extra]
    rfl
  · rw [extra]
    exact ⟨by decide, ⟨by decide, trivial, trivial, trivial, trivial, trivial⟩, trivial⟩

/-- **A reason need not be taken up**: `true` equals one, and so the row keeps the map that it has,
and its reason. -/
theorem reason_not_taken_up : suggestedForOne.Reachable ∧ suggestingForTrue.Proper ∧
    suggestingForTrue.Faithful ∧ suggestingForTrue.dismissed = false ∧
    (suggestedForOne.book.row? suggestingForTrue.entryId).isSome = true ∧
    ∃ row e u, suggestedForOne.book.row? "id-2" = some row ∧ row.entry = .ok e ∧
      ¬ e.TakesUp suggestingForTrue row.extra ∧
      (suggestedForOne.take (.attach "id-2" suggestingForTrue)).1.result =
        .ok (.entry (e.attach suggestingForTrue)) ∧
      (suggestedForOne.take (.attach "id-2" suggestingForTrue)).2.book.row? "id-2" = some row ∧
      e.suggestion = some u ∧ u.reason = .int 1 := by
  obtain ⟨row, e, extra, reads⟩ := reads_suggestedForOne
  have proper : suggestingForTrue.Proper := ⟨trivial, List.nodup_nil, trivial⟩
  have faithful : suggestingForTrue.Faithful := Suggestion.faithful_of_made rfl nofun
  obtain ⟨u, suggested, reason, same⟩ : ∃ u, e.suggestion = some u ∧ u.reason = .int 1 ∧
      (Json.object (e.attach suggestingForTrue).writeExtra).same row.extra = true := by
    have untagged : e.tag = none := (Except.ok.inj reads.keeps.tag).symm
    rw [extra, reads.keeps.suggestion]
    unfold Entry.attach Entry.writeExtra
    dsimp only
    rw [untagged, reads.keeps.extra]
    exact ⟨_, rfl, rfl, by decide +kernel⟩
  obtain ⟨result, now, after⟩ := reads.attach proper
  have kept := after.found
  rw [Row.rewritten_of_same same] at kept
  refine ⟨reads.reachable, proper, faithful, rfl, by decide +kernel, row, e, u, reads.found,
    reads.read, fun takes => ?_, result, kept, suggested, reason⟩
  have told := (takes same u suggested).1
  rw [reason] at told
  cases told

variable {s : Session} {id : String} {row : Row} {e : Entry} {fields : Fields} {g : Suggestion}

/-- **What was attached is read of the row**, or a suggestion of the same entry that the row had. -/
theorem Reads.attached (h : s.Reads id row fields e) (proper : g.Proper) (agrees : g.Faithful)
    (undismissed : g.dismissed = false) {n : Nat} (named : g.entryId = numbered n) :
    ∃ (now : Fields) (u : Suggestion),
      (s.take (.attach id g)).2.Reads id (row.rewritten (e.attach g).writeExtra) now (e.attach u) ∧
      u.PointsAs g ∧
      (e.TakesUp g row.extra → u.reason = g.reason ∧ u.postedAmount = g.postedAmount) := by
  obtain ⟨-, now, reads⟩ := h.attach proper
  by_cases same : (Json.object (e.attach g).writeExtra).same row.extra = true
  · obtain ⟨raw, suggested, equal⟩ :=
      h.keeps.suggestion_of_same h.map (h.proper_attach proper) same
    refine ⟨fields, .ofFields raw, ?_, ?_, fun takes => takes same _ suggested⟩
    · have kept := Row.rewritten_of_same same
      refine ⟨reads.reachable, reads.found, ?_, reads.proper, ?_⟩
      · rw [kept]
        exact h.map
      · rw [kept, h.read, Entry.attach, ← suggested]
    · exact agrees.pointsAs_of_same proper.stored undismissed named equal
  · have read := Row.entry_of_written h.map h.read same
    exact ⟨now, _, ⟨reads.reachable, reads.found, reads.map, reads.proper, read⟩,
      agrees.pointsAs, fun _ => ⟨agrees.reason, agrees.postedAmount⟩⟩

theorem Reads.book_attach (h : s.Reads id row fields e) :
    (s.take (.attach id g)).2.book = s.book.putRow (row.rewritten (e.attach g).writeExtra) := by
  have asked : (Step.attach id g).revision? = some (id, fun e => .ok (e.attach g)) := rfl
  exact (result_reworks asked (h.reachable.storeUp h.found) h.found (h.revised rfl)).2

theorem Reads.result_paymentInfo (h : s.Reads id row fields e) :
    (s.take (.paymentInfo id)).1.result = (do
      let policy ← s.book.policyOf row
      let due ← Except.liftFault (shownDue policy e.charge)
      return .info ⟨e, due, showsBadge policy e.charge⟩) := by
  have read := Http.exec_paymentInfo (s := { s with log := [] }) (h.reachable.storeUp h.found)
    h.found
  rw [result_of_map s (.paymentInfo id) rfl, read]
  unfold Book.info
  rw [h.read]
  show Reply.info <$> (s.book.policyOf row >>= _) = _
  cases s.book.policyOf row with
  | error why => rfl
  | ok policy =>
    show Reply.info <$> (Except.liftFault (shownDue policy e.charge) >>= _) =
      Except.liftFault (shownDue policy e.charge) >>= _
    cases Except.liftFault (shownDue policy e.charge) with
    | error why => rfl
    | ok due => rfl

theorem Reads.merged?_of_suggestion {u : Suggestion} (h : s.Reads id row fields (e.attach u))
    (undismissed : u.dismissed = false) (posted : (s.book.row? u.entryId).isSome = true)
    (request : Option String) :
    (s.take (.merge id request)).1.merged? = some ⟨some id, u.entryId⟩ := by
  obtain ⟨n, named⟩ := numbered_of_isSome h.reachable posted
  have some_id : u.entryId ≠ "" := by
    rw [named]
    exact numbered_ne_empty n
  have merged : (e.attach u).merge (fun posted => (s.book.row? posted).isSome) =
      .ok ⟨e.id, u.entryId⟩ := Entry.merge_attach undismissed some_id posted
  have own : e.id = some id :=
    (Row.id_of_entry h.read).trans (congrArg some (Book.id_of_row? h.found))
  have stored := Row.suggestion_of_entry h.read
  split at stored
  · cases stored
  cases Option.some.inj stored
  have look := canLookUp_of_posted h.reachable (e := e.attach _) rfl posted
  rw [Outcome.merged?_eq_some, result_take_merge (h.reachable.storeUp h.found) h.found h.read,
    Book.merge_eq_ok.2 ⟨look, merged⟩, own]
  rfl

/-- **What was attached is what is merged and shown next.**  The posted entry is that of the
suggestion, and so are its reason and its amount unless the row kept a map with others. -/
theorem attach_targets (h : s.Reads id row fields e) (proper : g.Proper) (agrees : g.Faithful)
    (undismissed : g.dismissed = false) (posted : (s.book.row? g.entryId).isSome = true)
    (request : Option String) :
    (s.take (.attach id g)).1.result = .ok (.entry (e.attach g)) ∧
    ∃ u : Suggestion, u.PointsAs g ∧
      (e.TakesUp g row.extra → u.reason = g.reason ∧ u.postedAmount = g.postedAmount) ∧
      ((s.take (.attach id g)).2.take (.paymentInfo id)).1.result = (do
        let policy ← s.book.policyOf row
        let due ← Except.liftFault (shownDue policy e.charge)
        return .info ⟨e.attach u, due, showsBadge policy e.charge⟩) ∧
      ((s.take (.attach id g)).2.take (.merge id request)).1.merged? =
        some ⟨some id, g.entryId⟩ := by
  obtain ⟨n, named⟩ := numbered_of_isSome h.reachable posted
  obtain ⟨now, u, reads, points, takes⟩ := h.attached proper agrees undismissed named
  have put := h.book_attach (g := g)
  refine ⟨(h.attach proper).1, u, points, takes, ?_, ?_⟩
  · have told := reads.result_paymentInfo
    have policy : (s.take (.attach id g)).2.book.policyOf
        (row.rewritten (e.attach g).writeExtra) = s.book.policyOf row := by
      rw [put]
      rfl
    rw [policy] at told
    exact told
  · have stays : ((s.take (.attach id g)).2.book.row? u.entryId).isSome = true := by
      rw [put, Book.row?_putRow, Option.isSome_map, points.entryId]
      exact posted
    have merged := reads.merged?_of_suggestion (points.dismissed.trans undismissed) stays request
    rw [points.entryId] at merged
    exact merged

/-! ## a purchase taken for another -/

def isBlank : Json → Bool
  | .object [] => true
  | _ => false

theorem eq_of_isBlank {x : Json} (h : isBlank x = true) : x = .object [] := by
  unfold isBlank at h
  split at h
  · rfl
  · cases h

theorem reads_threeTeas : ∃ row e, threeTeas.Reads "id-2" row [] e := by
  have told : (threeTeas.book.row? "id-2").any (fun row => isBlank row.extra && row.entry.toBool) =
      true := by decide +kernel
  obtain ⟨row, e, found, shape, read⟩ := read_of_told told
  have extra := eq_of_isBlank shape
  refine ⟨row, e, reachable_firstPurchase.run _, found, ?_, ?_, read⟩
  · rw [extra]
    rfl
  · rw [extra]
    exact ⟨List.nodup_nil, trivial⟩

/-- the first purchase is taken for the third -/
theorem attach_targets_third : ∃ row e, threeTeas.Reads "id-2" row [] e ∧
    (suggesting "id-4").Proper ∧ (suggesting "id-4").Faithful ∧
    (threeTeas.book.row? "id-4").isSome = true ∧ e.TakesUp (suggesting "id-4") row.extra ∧
    ((threeTeas.take (.attach "id-2" (suggesting "id-4"))).2.take (.merge "id-2" none)).1.merged? =
      some ⟨some "id-2", "id-4"⟩ := by
  obtain ⟨row, e, reads⟩ := reads_threeTeas
  have proper : (suggesting "id-4").Proper := ⟨trivial, List.nodup_nil, trivial⟩
  have faithful : (suggesting "id-4").Faithful := Suggestion.faithful_of_made rfl nofun
  have posted : (threeTeas.book.row? "id-4").isSome = true := by decide +kernel
  obtain ⟨-, u, -, -, -, merged⟩ := attach_targets reads proper faithful rfl posted none
  exact ⟨row, e, reads, proper, faithful, posted, reads.keeps.takesUp reads.map
    (reads.proper_attach proper) proper.stored faithful trivial trivial, merged⟩

/-- a suggestion for the third purchase with a map that names the second -/
def crossed : Suggestion := { suggesting "id-4" with raw := [("entry_id", .text "id-3")] }

/-- **The map of a suggestion counts and not its fields**: attached for the third purchase, it is
merged into the second.  And nothing is shown while the card is due on a day that no month has. -/
theorem attached_by_map :
    (threeTeas.Reachable ∧ crossed.dismissed = false ∧ crossed.entryId = "id-4" ∧
      (threeTeas.book.row? "id-4").isSome = true ∧
      (threeTeas.take (.attach "id-2" crossed)).1.fails = false ∧
      ((threeTeas.take (.attach "id-2" crossed)).2.take (.merge "id-2" none)).1.merged? =
        some ⟨some "id-2", "id-3"⟩) ∧
    let s := (threeTeas.take (.editAccount "id-1" [.dueDay (some 99)])).2
    s.Reachable ∧ (s.take (.attach "id-2" (suggesting "id-4"))).1.fails = false ∧
      ((s.take (.attach "id-2" (suggesting "id-4"))).2.take
        (.paymentInfo "id-2")).1.fails = true := by
  have reachable : threeTeas.Reachable := reachable_firstPurchase.run _
  refine ⟨⟨reachable, rfl, rfl, ?_, ?_, ?_⟩, reachable.take _, ?_, ?_⟩ <;> decide +kernel

end Session

end Billfold
