import Billfold.Ledger.Upkeep
import Billfold.Proofs.Entry.Metadata

/-!
# Tags read and written

The tag of a period is in its metadata field by field, and metadata that are written anew keep it.

* `Tag.field?`               what a tag that was read writes under a key
* `get?_writeExtra_of_mem`   the fields of a tag in the map of an entry
* `get?_writeExtra_of_ne`    the map of an entry, besides the suggestion
* `Row.Carries`              a row with the fields of a tag in its metadata
* `Row.tag?`                 the tag that is read from the metadata of a row
* `Row.Names`                a row whose metadata name a group, whatever else they say
* `carries_of_written`, `names_of_written`   what stays of this when metadata are written anew
* `extra_of_changes`         metadata that are set by hand
-/

namespace Billfold

namespace Fields

variable {fs : Fields} {key : String}

theorem get?_of_mem {f : String × Json} (apart : (fs.map Prod.fst).Nodup) (h : f ∈ fs) :
    fs.get? f.1 = some f.2 := by
  induction fs with
  | nil => cases h
  | cons g fs ih =>
    obtain ⟨once, apart⟩ := List.nodup_cons.1 apart
    unfold get?
    rcases List.mem_cons.1 h with rfl | h
    · exact if_pos rfl
    · have other : g.1 ≠ f.1 := fun same => once (same ▸ List.mem_map_of_mem h)
      rw [if_neg other]
      exact ih apart h

theorem get?_of_not_mem (h : key ∉ fs.map Prod.fst) : fs.get? key = none := by
  induction fs with
  | nil => rfl
  | cons g fs ih =>
    rw [List.map_cons, List.mem_cons, not_or] at h
    unfold get?
    rw [if_neg fun same => h.1 same.symm]
    exact ih h.2

end Fields

namespace Entry

variable {e : Entry} {tag : Tag} {key : String} {f : String × Json}

theorem get?_setAll_of_mem {fields : Fields} (apart : (fields.map Prod.fst).Nodup) (h : f ∈ fields)
    (onto : Fields) : (setAll fields onto).get? f.1 = some f.2 := by
  induction fields generalizing onto with
  | nil => cases h
  | cons g fields ih =>
    rw [List.map_cons, List.nodup_cons] at apart
    obtain ⟨once, apart⟩ := apart
    rcases List.mem_cons.1 h with rfl | h
    · have later : ∀ g ∈ fields, g.1 ≠ f.1 := by
        intro g hg same
        exact once (same ▸ List.mem_map_of_mem hg)
      exact (get?_setAll later _).trans (Fields.get?_set_self _ _ _)
    · exact ih apart h _

theorem get?_writeExtra_of_mem (tagged : e.tag = some tag) (h : f ∈ tag.stored) :
    e.writeExtra.get? f.1 = some f.2 := by
  have apart : (tag.stored.map Prod.fst).Nodup := by
    show Tag.keys.Nodup
    decide
  unfold writeExtra
  simp only [tagged]
  exact get?_setAll_of_mem apart h _

theorem get?_writeExtra_of_untagged (untagged : e.tag = none) (other : key ≠ Suggestion.key) :
    e.writeExtra.get? key = e.extra.get? key := by
  unfold writeExtra
  simp only [untagged]
  cases e.suggestion with
  | none => rfl
  | some s => exact Fields.get?_set_of_ne _ _ other

end Entry

namespace Tag

def field? (tag : Option Tag) (key : String) : Option Json :=
  tag.bind fun tag => Fields.get? key tag.stored

theorem nodup_stored (tag : Tag) : (tag.stored.map Prod.fst).Nodup := by
  show keys.Nodup
  decide

theorem field?_of_not_mem {key : String} (h : key ∉ keys) (tag : Option Tag) :
    field? tag key = none := by
  cases tag with
  | none => rfl
  | some tag => exact Fields.get?_of_not_mem h

variable {fields : Fields} {tag : Tag}

theorem read_of_stored (h : ∀ f ∈ tag.stored, fields.get? f.1 = some f.2)
    (named : tag.group ≠ some "") :
    read fields = .ok (some tag) := by
  have value {key : String} {v : Json} (hf : (key, v) ∈ tag.stored) : fields.get key = v := by
    unfold Fields.get
    rw [h _ hf]
    rfl
  have group : fields.get groupKey = .ofWords? tag.group := value (by simp [stored])
  have index : fields.get indexKey = .int tag.index := value (by simp [stored])
  have total : fields.get totalKey = .int tag.total := value (by simp [stored])
  have mode : fields.get modeKey = .text tag.mode.text := value (by simp [stored])
  have given : (Json.ofWords? tag.group).isTruthy = true := by
    cases group : tag.group with
    | none => rfl
    | some g => simpa [Json.ofWords?, Json.isTruthy, String.isEmpty_iff, group] using named
  have mode_eq : modeOf (.text tag.mode.text) = some tag.mode := by
    cases tag.mode <;> decide
  unfold read
  simp only [group, index, total, mode, given, mode_eq, Json.words?_ofWords?]
  rfl

theorem whole_of_wholeOf {v : Json} {n : Int} (h : wholeOf v = .ok (some n)) : v.whole = .ok n := by
  unfold wholeOf at h
  split at h
  · cases h
    assumption
  · cases h
  · cases h

/-- the values that a tag is read from -/
structure ReadFrom (fields : Fields) (tag : Tag) : Prop where
  given : (fields.get groupKey).isTruthy = true
  group : (fields.get groupKey).words? = tag.group
  index : (fields.get indexKey).whole = .ok tag.index
  total : (fields.get totalKey).whole = .ok tag.total

theorem readFrom_of_read (h : read fields = .ok (some tag)) : ReadFrom fields tag := by
  unfold read at h
  dsimp only at h
  split at h
  · cases h
  · next given =>
    obtain ⟨index, index_read, h⟩ := Except.bind_eq_ok.1 h
    cases index with
    | none => cases h
    | some index =>
      obtain ⟨total, total_read, h⟩ := Except.bind_eq_ok.1 h
      cases total with
      | none => cases h
      | some total =>
        obtain ⟨mode, -, rfl⟩ := Option.map_eq_some_iff.1 (Except.ok.inj h)
        exact ⟨by simpa using given, rfl, whole_of_wholeOf index_read, whole_of_wholeOf total_read⟩

theorem named_of_read (h : read fields = .ok (some tag)) :
    ∃ v, fields.get? groupKey = some v ∧ v.words? = tag.group := by
  obtain ⟨given, group, -, -⟩ := readFrom_of_read h
  cases found : fields.get? groupKey with
  | none =>
    rw [Fields.get, found] at given
    cases given
  | some v =>
    rw [Fields.get, found] at group
    exact ⟨v, rfl, group⟩

end Tag

namespace Entry

variable {e : Entry} {key : String}

theorem get?_writeExtra_of_ne (other : key ≠ Suggestion.key) :
    e.writeExtra.get? key = (Tag.field? e.tag key).or (e.extra.get? key) := by
  cases tagged : e.tag with
  | none => exact get?_writeExtra_of_untagged tagged other
  | some tag =>
    by_cases here : key ∈ tag.stored.map Prod.fst
    · obtain ⟨f, hf, rfl⟩ := List.mem_map.1 here
      rw [get?_writeExtra_of_mem tagged hf]
      show _ = (Fields.get? f.1 tag.stored).or _
      rw [Fields.get?_of_mem tag.nodup_stored hf]
      rfl
    · have apart : ∀ f ∈ tag.stored, f.1 ≠ key := fun f hf same =>
        here (same ▸ List.mem_map_of_mem hf)
      rw [Tag.field?_of_not_mem here]
      unfold writeExtra
      simp only [tagged]
      rw [get?_setAll apart]
      cases e.suggestion with
      | none => rfl
      | some s => exact Fields.get?_set_of_ne _ _ other

end Entry

/-- a value that, as metadata, names a group -/
def Json.NamesGroup (v : Json) (group : String) : Prop :=
  ∃ fields value, Metadata.ofValue v = .ok fields ∧ fields.get? Tag.groupKey = some value ∧
    value.words? = some group

namespace Row

def Carries (r : Row) (tag : Tag) : Prop :=
  ∃ fields : Fields, r.extra = .object fields ∧ ∀ f ∈ tag.stored, fields.get? f.1 = some f.2

def Names (r : Row) (group : String) : Prop := r.extra.NamesGroup group

variable {r old made settled : Row} {c e : Entry} {tag : Tag} {group : String}

theorem Carries.names (h : r.Carries tag) (named : tag.group = some group) : r.Names group := by
  obtain ⟨fields, map, said⟩ := h
  refine ⟨fields, .ofWords? tag.group, ?_, ?_, by rw [Json.words?_ofWords?, named]⟩
  · rw [map, Metadata.ofValue_object]
  · exact said (Tag.groupKey, .ofWords? tag.group) List.mem_cons_self

theorem Carries.tag_of_entry (h : r.Carries tag) (named : tag.group ≠ some "")
    (read : r.entry = .ok e) :
    e.tag = some tag := by
  obtain ⟨fields, map, said⟩ := h
  obtain ⟨metadata, reads⟩ := reads_of_entry read
  have same := reads.map
  rw [map, Metadata.ofValue_object] at same
  cases same
  exact Except.ok.inj (reads.tag.symm.trans (Tag.read_of_stored said named))

def tag? (r : Row) : Option Tag :=
  match Metadata.ofValue r.extra >>= Tag.read with
  | .ok tag => tag
  | .error _ => none

theorem Carries.tag?_eq (h : r.Carries tag) (named : tag.group ≠ some "") : r.tag? = some tag := by
  obtain ⟨fields, map, said⟩ := h
  unfold tag?
  rw [map, Metadata.ofValue_object]
  show (match Tag.read fields with | .ok tag => tag | .error _ => none) = _
  rw [Tag.read_of_stored said named]

theorem tag?_of_entry (read : r.entry = .ok e) : r.tag? = e.tag := by
  obtain ⟨metadata, reads⟩ := reads_of_entry read
  unfold tag?
  rw [reads.map]
  show (match Tag.read metadata with | .ok tag => tag | .error _ => none) = _
  rw [reads.tag]

/-! ## metadata written anew -/

theorem carries_of_written (carried : old.Carries tag) (tagged : c.tag = some tag)
    (h : { old with extra := .object c.writeExtra }.over? old = some settled) :
    settled.Carries tag := by
  have extra := extra_of_over? h
  dsimp only at extra
  split at extra
  · unfold Carries
    rw [extra]
    exact carried
  · exact ⟨_, extra, fun f hf => Entry.get?_writeExtra_of_mem tagged hf⟩

/-- a group is named by the tag alone where nothing else of the metadata can name it -/
theorem names_of_writeExtra (free : c.extra.get? Tag.groupKey = none)
    (h : (Json.object c.writeExtra).NamesGroup group) :
    ∃ tag, c.tag = some tag ∧ tag.group = some group := by
  obtain ⟨fields, value, map, found, named⟩ := h
  rw [Metadata.ofValue_object] at map
  cases map
  cases tagged : c.tag with
  | none =>
    rw [Entry.get?_writeExtra_of_untagged tagged (by decide), free] at found
    cases found
  | some tag =>
    have written := Entry.get?_writeExtra_of_mem tagged
      (f := (Tag.groupKey, .ofWords? tag.group)) List.mem_cons_self
    rw [written] at found
    cases found
    exact ⟨tag, rfl, (Json.words?_ofWords? tag.group).symm.trans named⟩

theorem names_of_written (free : c.extra.get? Tag.groupKey = none)
    (h : { old with extra := .object c.writeExtra }.over? old = some settled)
    (names : settled.Names group) :
    old.Names group ∨ ∃ tag, c.tag = some tag ∧ tag.group = some group := by
  have extra := extra_of_over? h
  dsimp only at extra
  unfold Names at names
  split at extra
  · rw [extra] at names
    exact .inl names
  · rw [extra] at names
    exact .inr (names_of_writeExtra free names)

theorem names_of_entry (read : old.entry = .ok e) (tagged : e.tag = some tag)
    (grouped : tag.group = some group) : old.Names group := by
  obtain ⟨metadata, reads⟩ := reads_of_entry read
  have tag_read := reads.tag
  rw [tagged] at tag_read
  obtain ⟨v, found, named⟩ := Tag.named_of_read tag_read
  exact ⟨metadata, v, reads.map, found, named.trans grouped⟩

/-! ## metadata set by hand -/

theorem extra_of_changes {changes : List RowChange} (h : changes.foldlM Row.change old = .ok made) :
    made.extra = old.extra ∨ ∃ v, .extra v ∈ changes ∧ made.extra = v := by
  induction changes generalizing old with
  | nil =>
    cases h
    exact .inl rfl
  | cons change changes ih =>
    rw [List.foldlM_cons] at h
    obtain ⟨next, changed, h⟩ := Except.bind_eq_ok.1 h
    rcases ih h with same | ⟨v, hv, extra⟩
    · rw [same]
      cases change with
      | extra v =>
        cases changed
        exact .inr ⟨v, List.mem_cons_self, rfl⟩
      | emptied => cases changed
      | _ =>
        cases changed
        exact .inl rfl
    · exact .inr ⟨v, List.mem_cons_of_mem _ hv, extra⟩

/-- a row that is set by hand names what it named before, or what it was given -/
theorem names_of_changes {changes : List RowChange}
    (made_eq : changes.foldlM Row.change old = .ok made) (h : made.over? old = some settled)
    (names : settled.Names group) :
    old.Names group ∨ ∃ v, .extra v ∈ changes ∧ v.NamesGroup group := by
  have extra := extra_of_over? h
  unfold Names at names
  split at extra
  · rw [extra] at names
    exact .inl names
  · rw [extra] at names
    rcases extra_of_changes made_eq with same | ⟨v, hv, given⟩
    · rw [same] at names
      exact .inl names
    · rw [given] at names
      exact .inr ⟨v, hv, names⟩

end Row

end Billfold
