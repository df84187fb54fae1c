import Billfold.Entry.Resolve
import Billfold.Proofs.Decimal.Text
import Billfold.Proofs.Entry.Rewritten

/-!
# Suggestions stored and read again

A suggestion holds its data twice, as fields of its own and as the map that a matcher stored.  What
is written is the map if there is one, so reading gives the suggestion again where the two agree.

* `Suggestion.Faithful`     what is stored of the suggestion reads as the suggestion
* `Suggestion.Arises`       a suggestion made here, or one read of metadata
* `Entry.dismissals`        an entry dismissed so many times
* `Faithful.read_trip`      stored as JSON text and read again after any number of dismissals
-/

namespace Billfold

namespace Suggestion

variable {s : Suggestion} {raw : Fields} {depth : Nat}

def Faithful (s : Suggestion) : Prop := Alike (ofFields s.stored) s

theorem stored_ne_nil (s : Suggestion) : s.stored ≠ [] := Fields.set_ne_nil _ _ _

theorem get_stored_dismissed (s : Suggestion) : s.stored.get "dismissed" = .bool s.dismissed := by
  rw [Fields.get, get?_stored]
  rfl

def base (s : Suggestion) : Fields := if s.raw.isEmpty then s.fields else s.raw

theorem get_stored (s : Suggestion) {key : String} (other : key ≠ "dismissed") :
    s.stored.get key = s.base.get key := by
  rw [stored, Fields.get, Fields.get?_set_of_ne _ _ other]
  rfl

theorem faithful_of_fields (entryId : idOf (s.base.get "entry_id") = s.entryId)
    (reason : s.base.get "reason" = s.reason)
    (confidence : Confidence.read (s.base.get "confidence") = s.confidence)
    (postedAmount : amountOf (s.base.get "posted_amount") = s.postedAmount) : s.Faithful := by
  have marked : (ofFields s.stored).dismissed = s.dismissed := by
    show isDismissed (s.stored.get "dismissed") = s.dismissed
    rw [get_stored_dismissed]
    rfl
  refine ⟨?_, ?_, ?_, ?_, marked, ?_⟩
  · show idOf (s.stored.get "entry_id") = s.entryId
    rw [get_stored s (by decide), entryId]
  · show s.stored.get "reason" = s.reason
    rw [get_stored s (by decide), reason]
  · show Confidence.read (s.stored.get "confidence") = s.confidence
    rw [get_stored s (by decide), confidence]
  · show amountOf (s.stored.get "posted_amount") = s.postedAmount
    rw [get_stored s (by decide), postedAmount]
  · rw [stored_ofFields s.stored_ne_nil, marked]
    exact Fields.set_of_get? s.get?_stored

theorem faithful_iff : s.Faithful ↔ idOf (s.base.get "entry_id") = s.entryId ∧
    s.base.get "reason" = s.reason ∧ Confidence.read (s.base.get "confidence") = s.confidence ∧
    amountOf (s.base.get "posted_amount") = s.postedAmount := by
  constructor
  · intro faithful
    refine ⟨?_, ?_, ?_, ?_⟩
    · rw [← faithful.entryId, ← get_stored s (by decide)]
      rfl
    · rw [← faithful.reason, ← get_stored s (by decide)]
      rfl
    · rw [← faithful.confidence, ← get_stored s (by decide)]
      rfl
    · rw [← faithful.postedAmount, ← get_stored s (by decide)]
      rfl
  · rintro ⟨entryId, reason, confidence, postedAmount⟩
    exact faithful_of_fields entryId reason confidence postedAmount

/-- **A suggestion made here is stored as it is.** -/
theorem faithful_of_made (made : s.raw = []) (writable : ∀ x ∈ s.postedAmount, x.IsWritable) :
    s.Faithful := by
  have base : s.base = s.fields := by
    rw [Suggestion.base, made]
    rfl
  rw [faithful_iff, base]
  refine ⟨rfl, rfl, Confidence.read_text s.confidence, ?_⟩
  unfold fields
  cases posted : s.postedAmount with
  | none => rfl
  | some x => exact Decimal.ofText?_text (writable x posted)

theorem faithful_ofFields (some_field : raw ≠ []) : (ofFields raw).Faithful :=
  alike_stored some_field

theorem Faithful.dismissed (h : s.Faithful) (b : Bool) : { s with dismissed := b }.Faithful := by
  obtain ⟨entryId, reason, confidence, postedAmount⟩ := faithful_iff.1 h
  exact faithful_of_fields entryId reason confidence postedAmount

theorem read_stored {metadata : Fields} (h : s.Faithful)
    (found : metadata.get? key = some (.object s.stored)) :
    ∃ t, read metadata = some t ∧ t.Alike s :=
  ⟨ofFields s.stored, read_of_get? s.stored_ne_nil found, h⟩

/-! ## the text of a suggestion -/

theorem each_fields {P : Json → Prop} (text : ∀ t, P (.text t)) (reason : P s.reason) :
    s.fields.Each P := by
  have keys : ((s.postedAmount.map fun x => ("posted_amount", Json.text x.text)).toList.map
      Prod.fst).Sublist ["posted_amount"] := by
    cases s.postedAmount with
    | none => exact List.nil_sublist _
    | some x => exact List.Sublist.refl _
  refine ⟨?_, fun f mem => ?_⟩
  · have all : ["entry_id", "reason", "confidence", "posted_amount"].Nodup := by decide
    rw [fields, List.map_append]
    exact all.sublist (keys.append_left ["entry_id", "reason", "confidence"])
  · rcases List.mem_append.1 mem with mem | mem
    · simp only [List.mem_cons, List.not_mem_nil, or_false] at mem
      rcases mem with rfl | rfl | rfl
      · exact text _
      · exact reason
      · exact text _
    · obtain ⟨x, -, rfl⟩ := Option.map_eq_some_iff.1 (Option.mem_toList.1 mem)
      exact text _

/-- a suggestion made here of what JSON text can write, or one read of metadata -/
inductive Arises : Suggestion → Prop where
  | made {s : Suggestion} (fresh : s.raw = []) (fits : s.reason.Fits (Json.maxDepth - 2))
    (writable : ∀ x ∈ s.postedAmount, x.IsWritable) : Arises s
  | read {s : Suggestion} {text : List Char} {v : Json} (stored : Json.read text = .ok v)
    (given : ofValue v = some s) : Arises s

theorem exists_raw_of_ofValue {v : Json} (h : ofValue v = some s) :
    ∃ metadata raw : Fields, v = .object metadata ∧ raw ≠ [] ∧
      metadata.get? key = some (.object raw) ∧ s = ofFields raw := by
  unfold ofValue at h
  split at h
  · rename_i metadata
    obtain ⟨raw, some_field, found, same⟩ := fields_of_read h
    exact ⟨metadata, raw, rfl, some_field, found, same⟩
  · cases h

theorem Arises.faithful (h : s.Arises) : s.Faithful := by
  cases h with
  | made fresh fits writable => exact faithful_of_made fresh writable
  | read stored given =>
    obtain ⟨metadata, raw, -, some_field, -, rfl⟩ := exists_raw_of_ofValue given
    exact faithful_ofFields some_field

theorem Arises.fit (h : s.Arises) : s.base.Fit (Json.maxDepth - 2) := by
  cases h with
  | made fresh fits writable =>
    have base : s.base = s.fields := by
      rw [Suggestion.base, fresh]
      rfl
    rw [base]
    exact Fields.fit_iff_each.2 (each_fields (fun _ => trivial) fits)
  | read stored given =>
    obtain ⟨metadata, raw, rfl, some_field, found, rfl⟩ := exists_raw_of_ofValue given
    obtain ⟨-, fit⟩ := Fields.fits_object_iff.1 (Json.fits_of_read stored)
    obtain ⟨-, raw_fit⟩ := Fields.fits_object_iff.1 (fit.values _ (Fields.mem_of_get? found))
    cases raw with
    | nil => exact absurd rfl some_field
    | cons f raw => exact raw_fit

theorem Faithful.read_trip (h : s.Faithful) (fit : s.base.Fit (Json.maxDepth - 2)) :
    ∃ v, Json.read (Json.object [(key, .object s.stored)]).print.toList = .ok v ∧
      ∃ t, ofValue v = some t ∧ t.Alike s := by
  have inner : (Json.object s.stored).Fits (Json.maxDepth - 1) :=
    Fields.fits_object_iff.2 ⟨by decide, fit.set "dismissed" trivial⟩
  have outer : (Json.object [(key, .object s.stored)]).Fits Json.maxDepth :=
    Fields.fits_object_iff.2 ⟨by decide, List.nodup_singleton _, List.forall_mem_singleton.2 inner⟩
  refine ⟨_, Json.read_print outer, ?_⟩
  exact read_stored h (if_pos rfl)

end Suggestion

namespace Entry

variable {e : Entry} {s : Suggestion}

def dismissals : Nat → Entry → Except Error Entry
  | 0, e => .ok e
  | n + 1, e => do dismissals n (← e.dismiss)

theorem dismiss_attach (e : Entry) (s : Suggestion) :
    (e.attach s).dismiss = .ok (e.attach { s with dismissed := true }) := rfl

def plain : Entry where
  id := some "id-1"
  account := "id-2"
  name := "Tea"
  date := (Date.of? 2024 3 7).get rfl
  amount := .finite false 450 (-2)
  currency := "USD"
  deferred := false
  month := none
  lockedAt := none
  suggestion := none
  tag := none
  extra := []

theorem dismissals_attach (e : Entry) (s : Suggestion) (n : Nat) :
    (e.attach s).dismissals n =
      .ok (e.attach { s with dismissed := s.dismissed || decide (0 < n) }) := by
  induction n generalizing s with
  | zero => simp [dismissals]
  | succ n ih =>
    show (e.attach s).dismiss >>= dismissals n = _
    rw [dismiss_attach]
    show (e.attach { s with dismissed := true }).dismissals n = _
    rw [ih]
    simp

end Entry

namespace Suggestion

/-- **A suggestion that is stored as JSON text reads as it was**, however often it is dismissed. -/
theorem read_dismissals {s : Suggestion} (arises : s.Arises) (e : Entry) (n : Nat) :
    ∃ t, (e.attach s).dismissals n = .ok (e.attach t) ∧
      t = { s with dismissed := s.dismissed || decide (0 < n) } ∧
      ∃ v, Json.read (Json.object [(key, .object t.stored)]).print.toList = .ok v ∧
        ∃ u, ofValue v = some u ∧ u.Alike t := by
  refine ⟨_, e.dismissals_attach s n, rfl, ?_⟩
  exact (arises.faithful.dismissed _).read_trip arises.fit

/-- a zero with a sign and seven digits behind the point, for a posted entry that has no id -/
def zeroBehind : Suggestion where
  entryId := ""
  reason := .object [("amount", .null)]
  confidence := .low
  postedAmount := some (.finite true 0 (-7))
  dismissed := false
  raw := []

/-- its text shows the exponent, `-0E-7`, and dismissed twice it is read with that -/
theorem read_dismissals_zeroBehind :
    (Decimal.finite true 0 (-7)).text = "-0E-7" ∧
    (Entry.plain.attach zeroBehind).dismissals 2 =
      .ok (Entry.plain.attach { zeroBehind with dismissed := true }) ∧
    ∃ v, Json.read (Json.object
        [(key, .object { zeroBehind with dismissed := true }.stored)]).print.toList = .ok v ∧
      ∃ u, ofValue v = some u ∧ u.postedAmount = some (.finite true 0 (-7)) ∧
        u.dismissed = true := by
  have fits : zeroBehind.reason.Fits (Json.maxDepth - 2) := ⟨by decide, by decide, trivial, trivial⟩
  have writable : ∀ x ∈ zeroBehind.postedAmount, x.IsWritable := by
    intro x posted
    cases posted
    show Decimal.inTextRange 0 (-7) = true
    decide +kernel
  obtain ⟨t, dismissed, rfl, v, text, u, read, alike⟩ :=
    read_dismissals (.made rfl fits writable) Entry.plain 2
  exact ⟨by decide +kernel, dismissed, v, text, u, read, alike.postedAmount, alike.dismissed⟩

end Suggestion

end Billfold
