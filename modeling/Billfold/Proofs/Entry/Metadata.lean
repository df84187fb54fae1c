import Billfold.Proofs.Ledger.Update

/-!
# Metadata read and written

What is read from a stored map is written back to it, and a row that is put in the place of another
keeps its metadata if they say the same.

* `Row.Reads`             how a row is read as an entry
* `get?_writeExtra`       the suggestion in the map of an entry
* `Row.suggested`         the fields of a row's suggestion, as they are stored
* `Row.Tidy`, `Row.Dismissed`   a suggestion that says whether it is dismissed, and one that is
* `Row.Dismissed.activeTarget`   a merge finds nothing to do there
-/

namespace Billfold

/-! ## fields -/

namespace Fields

theorem get?_erase (key other : String) (fs : Fields) :
    get? other (erase key fs) = if other = key then none else get? other fs := by
  split
  · next e => rw [e, get?_erase_self]
  · next ne => rw [get?_erase_of_ne fs ne]

theorem get?_erases (keys : List String) (other : String) (fs : Fields) :
    get? other (keys.foldl (fun rest key => erase key rest) fs) =
      if other ∈ keys then none else get? other fs := by
  induction keys generalizing fs with
  | nil => simp
  | cons key keys ih =>
    rw [List.foldl_cons, ih, get?_erase]
    by_cases here : other = key <;> simp [here]

end Fields

namespace Json

theorem same_object {xs : Fields} {y : Json} (h : (object xs).same y) :
    ∃ ys, y = .object ys ∧ sameFields xs ys := by
  cases y with
  | object ys =>
    unfold same at h
    exact ⟨ys, rfl, (Bool.and_eq_true_iff.1 h).2⟩
  | _ =>
    unfold same compareSize at h
    cases h

theorem get?_of_sameFields {xs ys : Fields} {key : String} {x : Json} (h : sameFields xs ys)
    (found : xs.get? key = some x) : ∃ y, ys.get? key = some y ∧ x.same y := by
  induction xs with
  | nil => cases found
  | cons f xs ih =>
    obtain ⟨k, v⟩ := f
    unfold sameFields at h
    obtain ⟨first, rest⟩ := Bool.and_eq_true_iff.1 h
    unfold Fields.get? at found
    split at found
    · next e =>
      cases found
      subst e
      split at first
      · next y there => exact ⟨y, there, first⟩
      · cases first
    · exact ih rest found

theorem same_bool {a b : Bool} (h : (bool a).same (bool b)) : a = b := by
  revert h
  cases a <;> cases b <;> decide

end Json

/-! ## entries -/

namespace Entry

/-- a metadata map without what an entry keeps apart -/
def rest (metadata : Fields) : Fields := typedKeys.foldl (fun rest key => rest.erase key) metadata

theorem get?_rest {key : String} (h : key ∈ typedKeys) (metadata : Fields) :
    (rest metadata).get? key = none := by
  unfold rest
  rw [Fields.get?_erases, if_pos h]

theorem get?_setAll {key : String} {fields : Fields} (h : ∀ f ∈ fields, f.1 ≠ key)
    (onto : Fields) : (setAll fields onto).get? key = onto.get? key := by
  unfold setAll
  induction fields generalizing onto with
  | nil => rfl
  | cons f fields ih =>
    rw [List.foldl_cons, ih fun g hg => h g (List.mem_cons_of_mem _ hg)]
    exact Fields.get?_set_of_ne f.2 onto (h f List.mem_cons_self).symm

theorem get?_writeExtra {e : Entry} (h : e.extra.get? Suggestion.key = none) :
    e.writeExtra.get? Suggestion.key = e.suggestion.map fun s => .object s.stored := by
  have apart (tag : Tag) : ∀ f ∈ tag.stored, f.1 ≠ Suggestion.key := by
    intro f hf
    have key : f.1 ∈ Tag.keys := List.mem_map_of_mem (f := Prod.fst) hf
    exact fun e => absurd (e ▸ key) (by decide)
  unfold writeExtra
  cases e.suggestion with
  | none =>
    cases e.tag with
    | none => exact h
    | some tag => exact (get?_setAll (apart tag) _).trans h
  | some s =>
    have written := Fields.get?_set_self Suggestion.key (.object s.stored) e.extra
    cases e.tag with
    | none => exact written
    | some tag => exact (get?_setAll (apart tag) _).trans written

end Entry

theorem Suggestion.get?_stored (s : Suggestion) :
    s.stored.get? "dismissed" = some (.bool s.dismissed) := Fields.get?_set_self _ _ _

/-! ## rows -/

namespace Row

structure Reads (r : Row) (e : Entry) (metadata : Fields) : Prop where
  map : Metadata.ofValue r.extra = .ok metadata
  suggestion : e.suggestion = Suggestion.read metadata
  tag : Tag.read metadata = .ok e.tag
  extra : e.extra = Entry.rest metadata
  amount : r.amount.toCents = .ok e.amount

variable {r old made settled : Row} {e : Entry}

theorem reads_of_entry (h : r.entry = .ok e) : ∃ metadata, r.Reads e metadata := by
  unfold entry Entry.readExtra at h
  obtain ⟨extra, read, h⟩ := Except.bind_eq_ok.1 h
  obtain ⟨metadata, map, read⟩ := Except.bind_eq_ok.1 read
  obtain ⟨tag, tagged, read⟩ := Except.bind_eq_ok.1 read
  obtain ⟨amount, cents, h⟩ := Except.bind_eq_ok.1 h
  cases read
  cases h
  exact ⟨metadata, map, rfl, tagged, rfl, cents⟩

theorem extra_stampedBy (stamp : Option Stamp) : (r.stampedBy stamp).extra = r.extra := by
  cases stamp <;> rfl

theorem extra_of_settled? (h : r.settled? = some settled) : settled.extra = r.extra := by
  unfold settled? at h
  obtain ⟨amount, -, rfl⟩ := Option.map_eq_some_iff.1 h
  rfl

theorem extra_of_kept {id : String} {stamp : Option Stamp}
    (kept : ((e.row id).stampedBy stamp).settled? = some r) : r.extra = .object e.writeExtra := by
  rw [extra_of_settled? kept, extra_stampedBy]
  rfl

theorem extra_of_over? (h : made.over? old = some settled) :
    settled.extra = if made.extra.same old.extra then old.extra else made.extra := by
  unfold over? at h
  obtain ⟨kept, -, rfl⟩ := Option.map_eq_some_iff.1 h
  rfl

theorem extra_of_updated {b : Book} {now : Instant} {c : Changes}
    (h : old.Updated b now c settled) : settled.extra = old.extra := by
  have kept {made : Row} (same : made.extra = old.extra) (h : made.over? old = some settled) :
      settled.extra = old.extra := by
    rw [extra_of_over? h, same]
    split <;> rfl
  cases h with
  | kept edit flag inPlace => exact kept (by rw [eq_of_edit edit]) inPlace
  | relocked edit flag asked decided inPlace =>
    exact kept (by rw [extra_stampedBy, eq_of_edit edit]) inPlace

/-! ## the suggestion of a row -/

def suggested (r : Row) : Fields :=
  match Metadata.ofValue r.extra with
  | .ok metadata => ((metadata.get Suggestion.key).fields?).getD []
  | .error _ => []

def Tidy (r : Row) : Prop :=
  ∃ fields : Fields, r.extra = .object fields ∧ ∀ v, fields.get? Suggestion.key = some v →
    ∃ (raw : Fields) (b : Bool), v = .object raw ∧ raw.get? "dismissed" = some (.bool b)

def Dismissed (r : Row) : Prop :=
  ∃ fields raw : Fields, r.extra = .object fields ∧
    fields.get? Suggestion.key = some (.object raw) ∧ raw.get? "dismissed" = some (.bool true)

theorem Dismissed.get_suggested (h : r.Dismissed) :
    r.suggested.get "dismissed" = .bool true := by
  obtain ⟨fields, raw, map, found, dismissed⟩ := h
  have there : fields.get Suggestion.key = .object raw := by
    unfold Fields.get
    rw [found]
    rfl
  unfold suggested
  rw [map, Metadata.ofValue_object]
  dsimp only
  rw [there]
  unfold Fields.get Json.fields?
  rw [Option.getD_some, dismissed]
  rfl

theorem suggestion_of_entry (h : r.entry = .ok e) :
    e.suggestion = if r.suggested.isEmpty then none else some (.ofFields r.suggested) := by
  obtain ⟨metadata, reads⟩ := reads_of_entry h
  rw [reads.suggestion]
  unfold suggested
  rw [reads.map]
  cases value : metadata.get Suggestion.key with
  | object raw => cases raw <;> simp [Suggestion.read, value, Json.fields?]
  | _ => simp [Suggestion.read, value, Json.fields?]

theorem Dismissed.suggestion (h : r.Dismissed) (read : r.entry = .ok e) :
    ∃ g, e.suggestion = some g ∧ g.dismissed = true := by
  have dismissed := h.get_suggested
  have some : ¬ r.suggested.isEmpty := by
    intro none
    rw [List.isEmpty_iff.1 none] at dismissed
    cases dismissed
  refine ⟨.ofFields r.suggested, ?_, ?_⟩
  · rw [suggestion_of_entry read, if_neg some]
  · unfold Suggestion.ofFields
    rw [dismissed]
    rfl

/-- **A suggestion that is dismissed is not active.** -/
theorem Dismissed.activeTarget (h : r.Dismissed) (read : r.entry = .ok e) :
    e.activeTarget = .error (.notFound (.activeSuggestion (some r.id))) := by
  obtain ⟨g, found, marked⟩ := h.suggestion read
  unfold Entry.activeTarget
  rw [found]
  dsimp only
  rw [if_pos marked, id_of_entry read]

theorem Dismissed.canLookUp (h : r.Dismissed) (read : r.entry = .ok e) : e.canLookUp = true := by
  obtain ⟨g, found, marked⟩ := h.suggestion read
  unfold Entry.canLookUp
  rw [found]
  dsimp only
  rw [marked, Bool.true_or]

/-- metadata that are written anew keep saying whether a suggestion is dismissed -/
theorem tidy_of_written {c : Entry} (tidy : old.Tidy) (free : c.extra.get? Suggestion.key = none)
    (h : { old with extra := .object c.writeExtra }.over? old = some settled) : settled.Tidy := by
  have extra := extra_of_over? h
  dsimp only at extra
  split at extra
  · unfold Tidy
    rw [extra]
    exact tidy
  · refine ⟨_, extra, fun v found => ?_⟩
    rw [Entry.get?_writeExtra free] at found
    obtain ⟨g, -, rfl⟩ := Option.map_eq_some_iff.1 found
    exact ⟨_, _, rfl, g.get?_stored⟩

-- the book keeps the old metadata where they equal the new ones, and there the number 1 equals
-- `true`: the row must be one whose suggestion says `true` or `false`
/-- **A suggestion that is dismissed is stored as dismissed**, whether or not it was before. -/
theorem dismissed_of_written {c : Entry} {g : Suggestion} (tidy : old.Tidy)
    (free : c.extra.get? Suggestion.key = none) (given : c.suggestion = some g)
    (dismissed : g.dismissed = true)
    (h : { old with extra := .object c.writeExtra }.over? old = some settled) :
    settled.Dismissed := by
  have written : c.writeExtra.get? Suggestion.key = some (.object g.stored) := by
    rw [Entry.get?_writeExtra free, given]
    rfl
  have marked : g.stored.get? "dismissed" = some (.bool true) := by
    rw [g.get?_stored, dismissed]
  have extra := extra_of_over? h
  dsimp only at extra
  split at extra
  · next same =>
    obtain ⟨fields, map, marks⟩ := tidy
    rw [map] at same extra
    obtain ⟨_, e, same⟩ := Json.same_object same
    cases e
    obtain ⟨v, found, same⟩ := Json.get?_of_sameFields same written
    obtain ⟨raw, b, rfl, said⟩ := marks v found
    obtain ⟨_, e, same⟩ := Json.same_object same
    cases e
    obtain ⟨w, found', same⟩ := Json.get?_of_sameFields same marked
    rw [said] at found'
    cases found'
    rw [← Json.same_bool same] at said
    exact ⟨fields, raw, extra, found, said⟩
  · exact ⟨_, _, extra, written, marked⟩

end Row

end Billfold
