import Billfold.Proofs.Entry.Rewritten

/-!
# What is read of any metadata

A tag, a suggestion and the mark of a pending entry are read of metadata whatever these are; what
does not say its part counts as absent or as its default.

* `Tag.Overflows`            metadata with a group and an infinite period or total
* `Tag.read_isOk`            the only metadata of which no tag can be read, nor none
* `Tag.read_eq_some`         the metadata of which a tag is read
* `Suggestion.ReadOf`        what a suggestion has of the fields that it is read from
* `Suggestion.read_eq_some`  the metadata of which a suggestion is read
* `isPending_iff`            the metadata that mark an entry as pending
-/

namespace Billfold

/-! ## tags -/

namespace Tag

variable {metadata : Fields} {tag : Tag} {v : Json}

theorem wholeOf_eq_some {n : Int} : wholeOf v = .ok (some n) ↔ v.whole = .ok n := by
  constructor
  · intro h
    exact whole_of_wholeOf h
  · intro h
    unfold wholeOf
    rw [h]

theorem wholeOf_isOk : (∃ n?, wholeOf v = .ok n?) ↔ ¬v.IsInfinite := by
  rw [← Json.whole_eq_outOfRange]
  unfold wholeOf
  constructor
  · rintro ⟨n?, h⟩ overflow
    rw [overflow] at h
    cases h
  · intro finite
    split
    · exact ⟨_, rfl⟩
    · exact absurd ‹_› finite
    · exact ⟨_, rfl⟩

def Overflows (metadata : Fields) : Prop :=
  (metadata.get groupKey).isTruthy = true ∧
    ((metadata.get indexKey).IsInfinite ∨
      (∃ n, (metadata.get indexKey).whole = .ok n) ∧ (metadata.get totalKey).IsInfinite)

/-- **Metadata have a tag or none, unless they overflow.** -/
theorem read_isOk : (∃ tag?, read metadata = .ok tag?) ↔ ¬Overflows metadata := by
  constructor
  · rintro ⟨tag?, h⟩ ⟨given, overflow⟩
    unfold read at h
    dsimp only at h
    rw [given] at h
    obtain ⟨index?, index, h⟩ := Except.bind_eq_ok.1 h
    rcases overflow with infinite | ⟨⟨n, whole⟩, infinite⟩
    · exact wholeOf_isOk.1 ⟨_, index⟩ infinite
    · rw [wholeOf_eq_some.2 whole] at index
      cases index
      obtain ⟨total?, total, -⟩ := Except.bind_eq_ok.1 h
      exact wholeOf_isOk.1 ⟨_, total⟩ infinite
  · intro finite
    unfold read
    dsimp only
    by_cases given : (metadata.get groupKey).isTruthy = true
    · obtain ⟨index?, index⟩ := wholeOf_isOk.2 fun infinite => finite ⟨given, .inl infinite⟩
      rw [given, index]
      cases index? with
      | none => exact ⟨none, rfl⟩
      | some n =>
        have whole := wholeOf_eq_some.1 index
        obtain ⟨total?, total⟩ := wholeOf_isOk.2 fun infinite =>
          finite ⟨given, .inr ⟨⟨n, whole⟩, infinite⟩⟩
        rw [total]
        cases total? with
        | none => exact ⟨none, rfl⟩
        | some m => exact ⟨_, rfl⟩
    · rw [Bool.not_eq_true] at given
      rw [given]
      exact ⟨none, rfl⟩

/-- a tag is read of its four fields; where one of them does not say its part, there is none -/
theorem read_eq_some :
    read metadata = .ok (some tag) ↔
      ReadFrom metadata tag ∧ modeOf (metadata.get modeKey) = some tag.mode := by
  constructor
  · intro h
    refine ⟨readFrom_of_read h, ?_⟩
    unfold read at h
    dsimp only at h
    split at h
    · cases h
    · obtain ⟨index?, -, h⟩ := Except.bind_eq_ok.1 h
      cases index? with
      | none => cases h
      | some index =>
        obtain ⟨total?, -, h⟩ := Except.bind_eq_ok.1 h
        cases total? with
        | none => cases h
        | some total =>
          obtain ⟨mode, named, rfl⟩ := Option.map_eq_some_iff.1 (Except.ok.inj h)
          exact named
  · rintro ⟨⟨given, group, index, total⟩, mode⟩
    unfold read
    simp only [given, wholeOf_eq_some.2 index, wholeOf_eq_some.2 total, mode, group]
    rfl

end Tag

/-! ## suggestions -/

theorem Confidence.read_eq {v : Json} {c : Confidence} :
    read v = c ↔ v = .text c.text ∨ c = .medium ∧ ∀ other : Confidence, v ≠ .text other.text := by
  have named : ∀ {s : String} {c : Confidence}, ofText? s = some c → s = c.text := by
    intro s c h
    unfold ofText? at h
    split at h
    · cases h; rfl
    · cases h; rfl
    · cases h; rfl
    · cases h
  constructor
  · rintro rfl
    by_cases other : ∃ c : Confidence, v = .text c.text
    · obtain ⟨c, rfl⟩ := other
      rw [read_text]
      exact .inl rfl
    · refine .inr ⟨?_, fun c same => other ⟨c, same⟩⟩
      unfold read
      split
      · rename_i s
        cases found : ofText? s with
        | none => rfl
        | some c => exact absurd ⟨c, congrArg Json.text (named found)⟩ other
      · rfl
  · rintro (rfl | ⟨rfl, other⟩)
    · exact read_text c
    · unfold read
      split
      · rename_i s
        cases found : ofText? s with
        | none => rfl
        | some c => exact absurd (congrArg Json.text (named found)) (other c)
      · rfl

namespace Suggestion

structure ReadOf (raw : Fields) (s : Suggestion) : Prop where
  /-- without an id it names no entry -/
  no_id : raw.get "entry_id" = .null → s.entryId = ""
  reason : s.reason = raw.get "reason"
  /-- without one of the three words the confidence is medium -/
  medium : s.confidence = .medium ↔ raw.get "confidence" = .text "medium" ∨
    ∀ c : Confidence, raw.get "confidence" ≠ .text c.text
  /-- what is no decimal is no amount -/
  no_amount : s.postedAmount = none ↔ raw.get "posted_amount" = .null ∨
    Decimal.ofText? (raw.get "posted_amount").words = none
  /-- nothing but the truth value dismisses -/
  dismissed : s.dismissed = true ↔ raw.get "dismissed" = .bool true

theorem readOf_ofFields (raw : Fields) : ReadOf raw (ofFields raw) where
  no_id := by
    intro none
    show idOf (raw.get "entry_id") = ""
    rw [none]
    rfl
  reason := rfl
  medium := by
    show Confidence.read (raw.get "confidence") = .medium ↔ _
    rw [Confidence.read_eq]
    simp only [true_and]
    exact Iff.rfl
  no_amount := by
    show amountOf (raw.get "posted_amount") = none ↔ _
    unfold amountOf
    split
    · exact ⟨fun _ => .inl ‹_›, fun _ => rfl⟩
    · rename_i given
      exact ⟨.inr, fun h => h.resolve_left given⟩
  dismissed := by
    show isDismissed (raw.get "dismissed") = true ↔ _
    unfold isDismissed
    split
    · rename_i b value
      rw [value, Json.bool.injEq]
    · rename_i other
      exact ⟨fun h => (Bool.false_ne_true h).elim, fun value => absurd value (other true)⟩

/-- **Metadata have a suggestion if their field is an object that is not empty.** -/
theorem read_eq_some {metadata : Fields} {s : Suggestion} :
    read metadata = some s ↔
      ∃ raw : Fields, raw ≠ [] ∧ metadata.get? key = some (.object raw) ∧ s = ofFields raw := by
  constructor
  · intro h
    exact fields_of_read h
  · rintro ⟨raw, some_field, found, rfl⟩
    exact read_of_get? some_field found

end Suggestion

/-! ## pending entries -/

/-- **An entry is pending if a provider's object says so**; what is no object says nothing. -/
theorem isPending_iff {metadata : Fields} :
    isPending metadata = true ↔ ∃ provider ∈ pendingProviders, ∃ fields : Fields,
      metadata.get provider = .object fields ∧ meansYes (Fields.get "pending" fields) = true := by
  have marks : ∀ v : Json, marksPending v = true ↔
      ∃ fields : Fields, v = .object fields ∧ meansYes (Fields.get "pending" fields) = true := by
    intro v
    unfold marksPending
    split
    · rename_i fields
      exact ⟨fun h => ⟨fields, rfl, h⟩, fun ⟨_, same, h⟩ => Json.object.inj same ▸ h⟩
    · rename_i other
      exact ⟨fun h => (Bool.false_ne_true h).elim,
        fun ⟨fields, same, _⟩ => absurd same (other fields)⟩
  unfold isPending
  rw [List.any_eq_true]
  exact exists_congr fun provider => and_congr_right fun _ => marks _

end Billfold
