import Billfold.Proofs.Entry.Tag
import Billfold.Proofs.Json.Value
import Billfold.Proofs.Json.Views

/-!
# Metadata written back

The map that is written for an entry says of it what the map said that the entry was read from, and
it is written the same way ever after.

* `Suggestion.Alike`        suggestions that nobody can tell apart
* `Entry.Keeps`             an entry with what was read of a stored map
* `Keeps.suggestion_written`, `Keeps.tag_written`   what is read of the map that is written for it
* `Keeps.fit`               JSON text can write that map
* `Row.entry_rewritten`     a row with its metadata written back
-/

namespace Billfold

namespace Fields

variable {key : String} {value : Json} {fs : Fields}

theorem set_of_get? (h : get? key fs = some value) : set key value fs = fs := by
  induction fs with
  | nil => cases h
  | cons f fs ih =>
    unfold get? at h
    unfold set
    split at h
    · rename_i same
      cases h
      rw [if_pos same]
    · rename_i other
      rw [if_neg other, ih h]

theorem set_ne_nil (key : String) (value : Json) (fs : Fields) : set key value fs ≠ [] := by
  intro none
  have found := get?_set_self key value fs
  rw [none] at found
  cases found

theorem filter_set {p : String → Bool} (dropped : p key = false) :
    (set key value fs).filter (fun f => p f.1) = fs.filter fun f => p f.1 := by
  induction fs with
  | nil => simp [set, dropped]
  | cons f fs ih =>
    unfold set
    split
    · rename_i same
      simp [same, dropped]
    · simp [List.filter_cons, ih]

theorem erases_eq_filter (keys : List String) (fs : Fields) :
    keys.foldl (fun rest key => erase key rest) fs = fs.filter fun f => !keys.contains f.1 := by
  induction keys generalizing fs with
  | nil => simp
  | cons key keys ih =>
    rw [List.foldl_cons, ih, erase, List.filter_filter]
    congr 1
    funext f
    rw [List.contains_cons, Bool.not_or]
    exact Bool.and_comm _ _

end Fields

/-! ## suggestions -/

namespace Suggestion

structure Alike (s t : Suggestion) : Prop where
  entryId : s.entryId = t.entryId
  reason : s.reason = t.reason
  confidence : s.confidence = t.confidence
  postedAmount : s.postedAmount = t.postedAmount
  dismissed : s.dismissed = t.dismissed
  stored : s.stored = t.stored

theorem stored_ofFields {raw : Fields} (some_field : raw ≠ []) :
    (ofFields raw).stored = raw.set "dismissed" (.bool (ofFields raw).dismissed) := by
  cases raw with
  | nil => exact absurd rfl some_field
  | cons f raw => rfl

theorem alike_stored {raw : Fields} (some_field : raw ≠ []) :
    Alike (ofFields (ofFields raw).stored) (ofFields raw) := by
  have written := stored_ofFields some_field
  have other : ∀ key, key ≠ "dismissed" → (ofFields raw).stored.get key = raw.get key := by
    intro key ne
    rw [written, Fields.get, Fields.get?_set_of_ne _ _ ne, Fields.get]
  have marked : (ofFields raw).stored.get "dismissed" = .bool (ofFields raw).dismissed := by
    rw [Fields.get, get?_stored]
    rfl
  have dismissed : (ofFields (ofFields raw).stored).dismissed = (ofFields raw).dismissed := by
    show isDismissed ((ofFields raw).stored.get "dismissed") = _
    rw [marked]
    rfl
  refine ⟨?_, ?_, ?_, ?_, dismissed, ?_⟩
  · exact congrArg idOf (other "entry_id" (by decide))
  · exact other "reason" (by decide)
  · exact congrArg Confidence.read (other "confidence" (by decide))
  · exact congrArg amountOf (other "posted_amount" (by decide))
  · have some_stored : (ofFields raw).stored ≠ [] := by
      rw [written]
      exact Fields.set_ne_nil _ _ _
    rw [stored_ofFields some_stored, dismissed]
    exact Fields.set_of_get? (get?_stored _)

theorem read_of_get? {metadata raw : Fields} (some_field : raw ≠ [])
    (found : metadata.get? key = some (.object raw)) : read metadata = some (ofFields raw) := by
  unfold read Fields.get
  rw [found, Option.getD_some]
  cases raw with
  | nil => exact absurd rfl some_field
  | cons f raw => rfl

theorem fields_of_read {metadata : Fields} {s : Suggestion} (h : read metadata = some s) :
    ∃ raw, raw ≠ [] ∧ metadata.get? key = some (.object raw) ∧ s = ofFields raw := by
  unfold read at h
  split at h
  · cases h
  · rename_i raw some_field value
    cases h
    refine ⟨raw, some_field, ?_, rfl⟩
    unfold Fields.get at value
    cases found : metadata.get? key with
    | none =>
      rw [found] at value
      cases value
    | some v =>
      rw [found] at value
      exact congrArg some value
  · cases h

end Suggestion

/-! ## the map that is written -/

namespace Entry

variable {e : Entry} {fields : Fields} {key : String}

theorem rest_eq_filter (metadata : Fields) :
    rest metadata = metadata.filter fun f => !typedKeys.contains f.1 :=
  Fields.erases_eq_filter typedKeys metadata

theorem rest_rest (metadata : Fields) : rest (rest metadata) = rest metadata := by
  rw [rest_eq_filter, rest_eq_filter, List.filter_filter]
  simp

theorem rest_set (typed : key ∈ typedKeys) (value : Json) (metadata : Fields) :
    rest (metadata.set key value) = rest metadata := by
  rw [rest_eq_filter, rest_eq_filter]
  exact Fields.filter_set (p := fun key => !typedKeys.contains key) (by simpa using typed)

theorem rest_setAll {fields : Fields} (typed : ∀ f ∈ fields, f.1 ∈ typedKeys) (onto : Fields) :
    rest (setAll fields onto) = rest onto := by
  unfold setAll
  induction fields generalizing onto with
  | nil => rfl
  | cons f fields ih =>
    rw [List.foldl_cons, ih fun g hg => typed g (List.mem_cons_of_mem _ hg)]
    exact rest_set (typed f List.mem_cons_self) f.2 onto

theorem typed_of_mem_stored {tag : Tag} {f : String × Json} (h : f ∈ tag.stored) :
    f.1 ∈ typedKeys :=
  List.mem_cons_of_mem _ (show f.1 ∈ Tag.keys from List.mem_map_of_mem (f := Prod.fst) h)

theorem rest_writeExtra (e : Entry) : rest e.writeExtra = rest e.extra := by
  have suggestion : Suggestion.key ∈ typedKeys := List.mem_cons_self
  unfold writeExtra
  cases e.tag with
  | none =>
    cases e.suggestion with
    | none => rfl
    | some s => exact rest_set suggestion _ _
  | some tag =>
    refine (rest_setAll (fun f hf => typed_of_mem_stored hf) _).trans ?_
    cases e.suggestion with
    | none => rfl
    | some s => exact rest_set suggestion _ _

/-- an entry is written with the tag that was read, whatever its suggestion is now -/
theorem read_tag_written (read : Tag.read fields = .ok e.tag) (extra : e.extra = rest fields) :
    Tag.read e.writeExtra = .ok e.tag := by
  cases tagged : e.tag with
  | none =>
    have free : e.extra.get? Tag.groupKey = none := by
      rw [extra]
      exact get?_rest (by decide) fields
    have absent : e.writeExtra.get Tag.groupKey = .null := by
      rw [Fields.get, get?_writeExtra_of_untagged tagged (by decide), free]
      rfl
    unfold Tag.read
    rw [absent]
    rfl
  | some tag =>
    rw [tagged] at read
    obtain ⟨given, group, -, -⟩ := Tag.readFrom_of_read read
    refine Tag.read_of_stored (fun f hf => get?_writeExtra_of_mem tagged hf) ?_
    rw [← group]
    exact fun none => Json.words_ne_empty given (Json.words_of_words? none)

theorem readExtra_of_tag {tag : Option Tag} (read : Tag.read fields = .ok tag) :
    readExtra (.object fields) = .ok ⟨Suggestion.read fields, tag, rest fields⟩ := by
  refine Except.bind_eq_ok.2 ⟨fields, Metadata.ofValue_object fields, ?_⟩
  exact Except.bind_eq_ok.2 ⟨tag, read, rfl⟩

structure Keeps (e : Entry) (fields : Fields) : Prop where
  suggestion : e.suggestion = Suggestion.read fields
  tag : Tag.read fields = .ok e.tag
  extra : e.extra = rest fields

namespace Keeps

theorem free (h : e.Keeps fields) (typed : key ∈ typedKeys) : e.extra.get? key = none := by
  rw [h.extra]
  exact get?_rest typed fields

/-- **The rest of a map that is written back is what was kept of it.** -/
theorem rest_written (h : e.Keeps fields) : rest e.writeExtra = e.extra := by
  rw [rest_writeExtra, h.extra, rest_rest]

theorem get?_written (h : e.Keeps fields) (other : key ∉ typedKeys) :
    e.writeExtra.get? key = fields.get? key := by
  have ne : key ≠ Suggestion.key := by
    rintro rfl
    exact other List.mem_cons_self
  have no_tag : key ∉ Tag.keys := fun mem => other (List.mem_cons_of_mem _ mem)
  rw [get?_writeExtra_of_ne ne, Tag.field?_of_not_mem no_tag, h.extra, rest, Fields.get?_erases,
    if_neg other]
  rfl

/-- **The tag of a map that is written back is the one that was read.** -/
theorem tag_written (h : e.Keeps fields) : Tag.read e.writeExtra = .ok e.tag :=
  read_tag_written h.tag h.extra

/-- **A suggestion in a map that is written back cannot be told from the one that was read.** -/
theorem suggestion_written (h : e.Keeps fields) :
    Option.Rel Suggestion.Alike (Suggestion.read e.writeExtra) e.suggestion := by
  have found := get?_writeExtra (e := e) (h.free (by decide))
  cases suggested : e.suggestion with
  | none =>
    rw [suggested] at found
    have absent : Suggestion.read e.writeExtra = none := by
      unfold Suggestion.read Fields.get
      rw [found]
      rfl
    rw [absent]
    exact .none
  | some s =>
    rw [suggested] at found
    obtain ⟨raw, some_field, -, rfl⟩ := Suggestion.fields_of_read (h.suggestion ▸ suggested)
    have some_stored : (Suggestion.ofFields raw).stored ≠ [] := by
      rw [Suggestion.stored_ofFields some_field]
      exact Fields.set_ne_nil _ _ _
    rw [Suggestion.read_of_get? some_stored found]
    exact .some (Suggestion.alike_stored some_field)

end Keeps

end Entry

/-! ## the fields of the map -/

namespace Fields

variable {P : Json → Prop} {depth : Nat} {fs : Fields}

/-- fields with different keys and with such values -/
structure Each (P : Json → Prop) (fs : Fields) : Prop where
  keys : (fs.map Prod.fst).Nodup
  values : ∀ f ∈ fs, P f.2

theorem Each.set {value : Json} (h : fs.Each P) (key : String) (such : P value) :
    (fs.set key value).Each P := by
  refine ⟨nodup_set key value h.keys, fun f mem => ?_⟩
  rcases mem_set mem with mem | rfl
  · exact h.values f mem
  · exact such

theorem Each.rest (h : fs.Each P) : (Entry.rest fs).Each P := by
  rw [Entry.rest_eq_filter]
  refine ⟨h.keys.sublist (List.Sublist.map _ List.filter_sublist), fun f mem => ?_⟩
  exact h.values f (List.mem_of_mem_filter mem)

theorem Each.setAll {fields : Fields} (h : fs.Each P) (such : ∀ f ∈ fields, P f.2) :
    (Entry.setAll fields fs).Each P := by
  unfold Entry.setAll
  induction fields generalizing fs with
  | nil => exact h
  | cons f fields ih =>
    rw [List.foldl_cons]
    exact ih (h.set f.1 (such f List.mem_cons_self)) fun g hg => such g (List.mem_cons_of_mem _ hg)

/-- fields that JSON text can write in an object -/
structure Fit (depth : Nat) (fs : Fields) : Prop where
  keys : (fs.map Prod.fst).Nodup
  values : ∀ f ∈ fs, f.2.Fits depth

theorem fit_iff_each : fs.Fit depth ↔ fs.Each fun v => v.Fits depth := by
  constructor
  · intro h
    exact ⟨h.keys, h.values⟩
  · intro h
    exact ⟨h.keys, h.values⟩

theorem fits_object_iff : (Json.object fs).Fits depth ↔ 0 < depth ∧ fs.Fit (depth - 1) := by
  constructor
  · rintro ⟨deep, keys, values⟩
    exact ⟨deep, keys, Json.fitFields_iff.1 values⟩
  · rintro ⟨deep, keys, values⟩
    exact ⟨deep, keys, Json.fitFields_iff.2 values⟩

theorem Fit.set {value : Json} (h : fs.Fit depth) (key : String) (fits : value.Fits depth) :
    (fs.set key value).Fit depth :=
  fit_iff_each.2 ((fit_iff_each.1 h).set key fits)

theorem mem_of_get? {key : String} {value : Json} (h : fs.get? key = some value) :
    (key, value) ∈ fs := by
  induction fs with
  | nil => cases h
  | cons f fs ih =>
    unfold get? at h
    split at h
    · rename_i same
      cases h
      rw [← same]
      exact List.mem_cons_self
    · exact List.mem_cons_of_mem _ (ih h)

theorem Fit.get (h : fs.Fit depth) (key : String) : (fs.get key).Fits depth := by
  unfold Fields.get
  cases found : fs.get? key with
  | none => trivial
  | some value => exact h.values _ (mem_of_get? found)

end Fields

namespace Entry

variable {e : Entry} {fields : Fields} {depth : Nat}

theorem Keeps.fit_stored {s : Suggestion} (h : e.Keeps fields) (fit : fields.Fit depth)
    (suggested : e.suggestion = some s) : (Json.object s.stored).Fits depth := by
  obtain ⟨raw, some_field, found, rfl⟩ := Suggestion.fields_of_read (h.suggestion ▸ suggested)
  obtain ⟨deep, raw_fit⟩ := Fields.fits_object_iff.1 (fit.values _ (Fields.mem_of_get? found))
  rw [Suggestion.stored_ofFields some_field]
  exact Fields.fits_object_iff.2 ⟨deep, raw_fit.set _ trivial⟩

theorem Keeps.fits_tag {tag : Tag} (h : e.Keeps fields) (fit : fields.Fit depth)
    (tagged : e.tag = some tag) : ∀ f ∈ tag.stored, f.2.Fits depth := by
  have read := h.tag
  rw [tagged] at read
  obtain ⟨-, -, index, total⟩ := Tag.readFrom_of_read read
  intro f mem
  simp only [Tag.stored, List.mem_cons, List.not_mem_nil, or_false] at mem
  rcases mem with rfl | rfl | rfl | rfl
  · cases tag.group <;> trivial
  · exact Json.natAbs_whole_lt (fit.get _) index
  · exact Json.natAbs_whole_lt (fit.get _) total
  · trivial

theorem each_writeExtra {P : Json → Prop} (rest : e.extra.Each P)
    (suggestion : ∀ s ∈ e.suggestion, P (.object s.stored))
    (tag : ∀ tag ∈ e.tag, ∀ f ∈ tag.stored, P f.2) : e.writeExtra.Each P := by
  unfold writeExtra
  cases suggested : e.suggestion with
  | none =>
    cases tagged : e.tag with
    | none => exact rest
    | some t => exact rest.setAll (tag t tagged)
  | some s =>
    have written := rest.set Suggestion.key (suggestion s suggested)
    cases tagged : e.tag with
    | none => exact written
    | some t => exact written.setAll (tag t tagged)

/-- **JSON text can write the map of an entry that was read from such text.** -/
theorem Keeps.fit (h : e.Keeps fields) (fit : fields.Fit depth) : e.writeExtra.Fit depth := by
  have rest : e.extra.Each fun v => v.Fits depth := by
    rw [h.extra]
    exact (Fields.fit_iff_each.1 fit).rest
  exact Fields.fit_iff_each.2 (each_writeExtra rest (fun s suggested => h.fit_stored fit suggested)
    fun tag tagged => h.fits_tag fit tagged)

theorem writeExtra_written {again : Entry} (h : e.Keeps fields) (h' : again.Keeps e.writeExtra) :
    again.writeExtra = e.writeExtra := by
  have suggestion := h.suggestion_written
  have tag := Except.ok.inj (h'.tag.symm.trans h.tag_written)
  have extra : again.extra = e.extra := h'.extra.trans h.rest_written
  rw [← h'.suggestion] at suggestion
  unfold writeExtra
  rw [tag, extra]
  cases found : again.suggestion with
  | none =>
    rw [found] at suggestion
    cases suggested : e.suggestion with
    | none => rfl
    | some s =>
      rw [suggested] at suggestion
      cases suggestion
  | some t =>
    rw [found] at suggestion
    cases suggested : e.suggestion with
    | none =>
      rw [suggested] at suggestion
      cases suggestion
    | some s =>
      rw [suggested] at suggestion
      cases suggestion with
      | some alike => simp only [alike.stored]

end Entry

namespace Row

variable {row : Row} {e : Entry} {fields : Fields}

theorem keeps_of_map (map : Metadata.ofValue row.extra = .ok fields) (h : row.entry = .ok e) :
    e.Keeps fields := by
  obtain ⟨metadata, reads⟩ := reads_of_entry h
  cases reads.map.symm.trans map
  exact ⟨reads.suggestion, reads.tag, reads.extra⟩

theorem keeps_of_entry (extra : row.extra = .object fields) (h : row.entry = .ok e) :
    e.Keeps fields := by
  refine keeps_of_map ?_ h
  rw [extra, Metadata.ofValue_object]

theorem entry_of_tag {written : Fields} {tag : Option Tag} (h : row.entry = .ok e)
    (read : Tag.read written = .ok tag) :
    ∃ again, { row with extra := .object written }.entry = .ok again ∧ again.Keeps written := by
  obtain ⟨extra, -, h⟩ := Except.bind_eq_ok.1 h
  obtain ⟨amount, cents, h⟩ := Except.bind_eq_ok.1 h
  have again := Entry.readExtra_of_tag read
  refine ⟨_, Except.bind_eq_ok.2 ⟨_, again, Except.bind_eq_ok.2 ⟨amount, cents, rfl⟩⟩, ?_⟩
  exact ⟨rfl, read, rfl⟩

/-- **Metadata written back say what they said.** -/
theorem entry_rewritten {text : List Char} (stored : Json.read text = .ok (.object fields))
    (extra : row.extra = .object fields) (read : row.entry = .ok e) :
    ∃ written : Fields,
      Json.read (Json.object e.writeExtra).print.toList = .ok (.object written) ∧
      (∀ key, key ∉ Entry.typedKeys → written.get? key = fields.get? key) ∧
      ∃ again, { row with extra := .object written }.entry = .ok again ∧
        again.tag = e.tag ∧ again.extra = e.extra ∧
        Option.Rel Suggestion.Alike again.suggestion e.suggestion ∧
        Json.read (Json.object again.writeExtra).print.toList = .ok (.object written) := by
  have keeps := keeps_of_entry extra read
  obtain ⟨deep, fit⟩ := Fields.fits_object_iff.1 (Json.fits_of_read stored)
  have text := Json.read_print (Fields.fits_object_iff.2 ⟨deep, keeps.fit fit⟩)
  obtain ⟨again, read', keeps'⟩ := entry_of_tag read keeps.tag_written
  refine ⟨e.writeExtra, text, fun key other => keeps.get?_written other, again, read',
    ?_, ?_, ?_, ?_⟩
  · exact Except.ok.inj (keeps'.tag.symm.trans keeps.tag_written)
  · exact keeps'.extra.trans keeps.rest_written
  · rw [keeps'.suggestion]
    exact keeps.suggestion_written
  · rw [Entry.writeExtra_written keeps keeps']
    exact text

/-- metadata with a group that is a number, a period that is a text and a total that is a yes, and
with a suggestion that is dismissed by a number -/
def oddMetadata : Fields :=
  [("note", .text "é"), ("installment_group", .int 7),
    ("installment_index", .text " 2 "), ("installments_total", .bool true),
    ("potential_posted_match", .object [("entry_id", .int 12), ("dismissed", .int 1)])]

def odd : Row where
  id := "id-1"
  account := "id-2"
  name := "Desk"
  date := ⟨2024, 3, 4, by decide, by decide, by decide, by decide, by decide, by decide⟩
  amount := .finite false 10 0
  currency := "USD"
  deferred := false
  month := none
  lockedAt := none
  extra := .object oddMetadata

/-- the tag of such metadata is read, and it is told in the same way when they are written back -/
theorem entry_rewritten_odd :
    ∃ e, odd.entry = .ok e ∧ e.tag = some ⟨some "7", 2, 1, .divide⟩ ∧ ∃ written : Fields,
      Json.read (Json.object e.writeExtra).print.toList = .ok (.object written) ∧
      ∃ again, { odd with extra := .object written }.entry = .ok again ∧ again.tag = e.tag := by
  have fits : (Json.object oddMetadata).Fits Json.maxDepth := by
    have small : 10 ^ 2 ≤ 10 ^ maxWholeDigits := Nat.pow_le_pow_right (by decide) (by decide)
    have seven : (7 : Int).natAbs < 10 ^ maxWholeDigits := Nat.lt_of_lt_of_le (by decide) small
    have twelve : (12 : Int).natAbs < 10 ^ maxWholeDigits := Nat.lt_of_lt_of_le (by decide) small
    have one : (1 : Int).natAbs < 10 ^ maxWholeDigits := Nat.lt_of_lt_of_le (by decide) small
    exact ⟨by decide, by decide, trivial, seven, trivial, trivial,
      ⟨by decide, by decide, twelve, one, trivial⟩, trivial⟩
  have told : (match odd.entry with
      | .ok e => decide (e.tag = some ⟨some "7", 2, 1, .divide⟩)
      | .error _ => false) = true := by decide +kernel
  split at told
  · rename_i e read
    obtain ⟨written, text, -, again, read', tag, -⟩ :=
      entry_rewritten (Json.read_print fits) rfl read
    exact ⟨e, read, of_decide_eq_true told, written, text, again, read', tag⟩
  · cases told

end Row

end Billfold
