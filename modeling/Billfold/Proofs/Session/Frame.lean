import Billfold.Proofs.Entry.Tag
import Billfold.Proofs.Http.Failure
import Billfold.Proofs.Session.Row

/-!
# What work on a suggestion leaves alone

A suggestion is attached, dismissed or cleared by writing the metadata of its row anew.  Nothing
else of the book changes, and of the metadata only the keys that an entry keeps apart can.

* `Tag.IsWritten`          the fields of a tag are stored as they are written
* `Entry.Rewrites`         what becomes of a stored map
* `Row.Revised.rewrites`   what becomes of the map of a row
* `suggestion_frame`       the book after a step that works on a suggestion
* `suggestion_clears_group`   a group without the rest of a tag is dropped
-/

namespace Billfold

/-! ## the keys of a tag -/

namespace Tag

/-- the keys of a tag are stored as the tag that is read from them is written -/
def IsWritten (fields : Fields) : Prop :=
  ∃ tag, read fields = .ok tag ∧ ∀ key ∈ keys, fields.get? key = field? tag key

end Tag

namespace Entry

variable {e : Entry} {key : String} {fields fields' : Fields}

/-- what becomes of a stored map when the suggestion in it is worked on: the keys that an entry does
not keep apart stay, and either all of the map is left as it is, or those of a tag are as the tag
that is read from them is written -/
structure Rewrites (fields fields' : Fields) : Prop where
  others : ∀ key, key ∉ typedKeys → fields'.get? key = fields.get? key
  tag : fields' = fields ∨
    ∃ tag, Tag.read fields = .ok tag ∧ ∀ key ∈ Tag.keys, fields'.get? key = Tag.field? tag key

theorem Rewrites.refl (fields : Fields) : Rewrites fields fields :=
  ⟨fun _ _ => rfl, .inl rfl⟩

/-- **Of a map that is not left as it is, all keys but that of the suggestion stay exactly if those
of a tag are stored as they are written.** -/
theorem Rewrites.keeps_iff (h : Rewrites fields fields') :
    (∀ key, key ≠ Suggestion.key → fields'.get? key = fields.get? key) ↔
      fields' = fields ∨ Tag.IsWritten fields := by
  constructor
  · intro keeps
    rcases h.tag with same | ⟨tag, read, written⟩
    · exact .inl same
    · refine .inr ⟨tag, read, fun key hk => ?_⟩
      have other : key ≠ Suggestion.key := by
        rintro rfl
        exact absurd hk (by decide)
      rw [← keeps key other, written key hk]
  · -- what is read is read once, so the tag that is written is the one that was stored
    rintro (rfl | ⟨tag, read, said⟩) key other
    · rfl
    by_cases hk : key ∈ Tag.keys
    · rcases h.tag with rfl | ⟨_, read', written⟩
      · rfl
      · rw [read] at read'
        cases read'
        rw [written key hk, said key hk]
    · exact h.others key fun typed => (List.mem_cons.1 typed).elim other hk

end Entry

/-! ## the row -/

namespace Row

variable {row settled : Row} {change : Entry → Except Error Entry} {changed : Entry} {id : String}
variable {step : Step} {fields : Fields}

theorem Revised.rewrites (h : row.Revised change changed settled)
    (asked : step.revision? = some (id, change)) (map : row.extra = .object fields) :
    ∃ fields', settled.extra = .object fields' ∧ Entry.Rewrites fields fields' := by
  have extra := extra_of_over? h.inPlace
  dsimp only at extra
  split at extra
  · exact ⟨fields, extra.trans map, .refl fields⟩
  obtain ⟨e, read, made⟩ := h.made
  obtain ⟨metadata, reads⟩ := reads_of_entry read
  have same := reads.map
  rw [map, Metadata.ofValue_object] at same
  cases same
  rw [Step.eq_of_revision asked made] at extra
  refine ⟨_, extra, ⟨fun key other => ?_, .inr ⟨e.tag, reads.tag, fun key hk => ?_⟩⟩⟩
  · have apart : key ≠ Suggestion.key := by
      rintro rfl
      exact other List.mem_cons_self
    rw [Entry.get?_writeExtra_of_ne apart,
      Tag.field?_of_not_mem fun hk => other (List.mem_cons_of_mem _ hk)]
    show e.extra.get? key = _
    rw [reads.extra]
    unfold Entry.rest
    rw [Fields.get?_erases, if_neg other]
  · have other : key ≠ Suggestion.key := by
      rintro rfl
      exact absurd hk (by decide)
    rw [Entry.get?_writeExtra_of_ne other]
    show (Tag.field? e.tag key).or (e.extra.get? key) = _
    rw [reads.extra, Entry.get?_rest (List.mem_cons_of_mem _ hk), Option.or_none]

end Row

/-! ## the book -/

theorem Step.revision?_anonymous (step : Step) : step.anonymous.revision? = step.revision? := by
  cases step <;> rfl

namespace Session

variable {s : Session} {step done : Step} {id : String} {change : Entry → Except Error Entry}

theorem revised_of_take (h : s.Reachable) (does : Does step done)
    (asked : done.revision? = some (id, change)) :
    (s.take step).2.book = s.book ∨ ∃ row changed settled, s.book.row? id = some row ∧
      row.Revised change changed settled ∧ (s.take step).2.book = s.book.putRow settled := by
  obtain ⟨-, _, _, -, -, ⟨same, -⟩ | ⟨other, does', turn⟩⟩ := take_turn h.numbered step
  · exact .inl same
  have asked' : other.revision? = some (id, change) := by
    rw [← Step.revision?_anonymous, does'.anonymous_eq does, Step.revision?_anonymous, asked]
  generalize (s.take step).2.book = after at turn
  cases turn with
  | same => exact .inl rfl
  | revised asked found revised =>
    rw [asked'] at asked
    cases asked
    exact .inr ⟨_, _, _, found, revised, rfl⟩
  | _ => cases asked'

/-- **Work on a suggestion touches the suggestion, and of the rest of the metadata no more than the
keys of a tag.**  After a step that attaches, dismisses or clears the suggestion of an entry, the
accounts and the other rows are as they were, and so is every column of the row but its metadata.
In a stored map each key that is not one of those of the suggestion and of a tag keeps its value.
Those of a tag are all left as they are with the rest of the map, or are rewritten as the tag that
was read from them, if one was; so they too keep their values exactly if the map is left as it is or
they were stored in the way in which tags are written. -/
theorem suggestion_frame (h : s.Reachable) (does : Does step done)
    (asked : done.revision? = some (id, change)) :
    (s.take step).2.book.accounts = s.book.accounts ∧
    (s.take step).2.book.rows.map Row.id = s.book.rows.map Row.id ∧
    (∀ other, other ≠ id → (s.take step).2.book.row? other = s.book.row? other) ∧
    ∀ row, s.book.row? id = some row → ∃ now, (s.take step).2.book.row? id = some now ∧
      now = { row with extra := now.extra } ∧
      ∀ fields : Fields, row.extra = .object fields →
        ∃ fields' : Fields, now.extra = .object fields' ∧
        (∀ key, key ∉ Entry.typedKeys → fields'.get? key = fields.get? key) ∧
        (fields' = fields ∨ ∃ tag, Tag.read fields = .ok tag ∧
          ∀ key ∈ Tag.keys, fields'.get? key = Tag.field? tag key) ∧
        ((∀ key, key ≠ Suggestion.key → fields'.get? key = fields.get? key) ↔
          fields' = fields ∨ Tag.IsWritten fields) := by
  rcases revised_of_take h does asked with same | ⟨old, changed, settled, found, revised, put⟩
  · rw [same]
    refine ⟨rfl, rfl, fun _ _ => rfl, fun row found => ⟨row, found, rfl, fun fields map => ?_⟩⟩
    have stays := Entry.Rewrites.refl fields
    exact ⟨fields, map, stays.others, stays.tag, stays.keeps_iff⟩
  have here : settled.id = id :=
    revised.settles.id.trans (show old.id = id from Book.id_of_row? found)
  rw [put]
  refine ⟨rfl, ?_, fun other ne => ?_, fun row found' => ⟨settled, ?_, ?_, fun fields map => ?_⟩⟩
  · unfold Book.putRow
    rw [List.map_map]
    refine List.map_congr_left fun r _ => ?_
    show (if r.id = settled.id then settled else r).id = r.id
    split
    · next e => exact e.symm
    · rfl
  · exact Book.row?_putRow_of_ne _ _ (here ▸ ne)
  · rw [← here]
    exact Book.row?_putRow_self (here ▸ found)
  · rw [found] at found'
    cases found'
    exact revised.eq (h.numbered.wall old (Book.mem_of_row? found))
  · rw [found] at found'
    cases found'
    obtain ⟨fields', extra, rewrites⟩ := revised.rewrites asked map
    exact ⟨fields', extra, rewrites.others, rewrites.tag, rewrites.keeps_iff⟩

/-! ## a group without the rest of a tag -/

/-- the text that the metadata of a row have under a key, where they are an object -/
def storedText (s : Session) (id key : String) : Option (Option String) :=
  match (s.book.row? id).map Row.extra with
  | some (.object fields) =>
    match Fields.get? key fields with
    | some (.text t) => some (some t)
    | _ => some none
  | _ => none

theorem object_of_storedText {key : String} {t : Option String}
    (h : s.storedText id key = some t) :
    ∃ row fields, s.book.row? id = some row ∧ row.extra = .object fields := by
  unfold storedText at h
  split at h
  · next fields extra =>
    obtain ⟨row, found, map⟩ := Option.map_eq_some_iff.1 extra
    exact ⟨row, fields, found, map⟩
  · cases h

/-- the first purchase is given a note and a group, but nothing else of a tag -/
def labelFirst : Step :=
  .editRow "id-2" [.extra (.object [(Tag.groupKey, .text "spring"), ("note", .text "gift")])]

def labelled : Session := (firstPurchase.take labelFirst).2

theorem reachable_labelled : labelled.Reachable := reachable_firstPurchase.take labelFirst

def clearFirst : Step := .clear "id-2" none

theorem does_clearFirst : Does clearFirst clearFirst := .itself fun _ h => nomatch h

/-- the note is still there when the suggestion is cleared -/
theorem suggestion_frame_labelled :
    labelled.Reachable ∧ Does clearFirst clearFirst ∧
      clearFirst.revision? = some ("id-2", fun e => .ok e.clear) ∧
      (labelled.take clearFirst).1.fails = false ∧
      labelled.storedText "id-2" "note" = some (some "gift") ∧
      ∃ row now, labelled.book.row? "id-2" = some row ∧
        (labelled.take clearFirst).2.book.row? "id-2" = some now ∧
        now = { row with extra := now.extra } ∧
        ∃ fields fields' : Fields, row.extra = .object fields ∧ now.extra = .object fields' ∧
          fields'.get? "note" = fields.get? "note" := by
  have noted : labelled.storedText "id-2" "note" = some (some "gift") := by decide +kernel
  obtain ⟨row, fields, found, map⟩ := object_of_storedText noted
  obtain ⟨-, -, -, rows⟩ := suggestion_frame reachable_labelled does_clearFirst rfl
  obtain ⟨now, there, same, maps⟩ := rows row found
  obtain ⟨fields', map', others, -⟩ := maps fields map
  exact ⟨reachable_labelled, does_clearFirst, rfl, by decide +kernel, noted, row, now, found, there,
    same, fields, fields', map, map', others "note" (by decide)⟩

/-- **A group without the rest of a tag is dropped** when the suggestion is cleared, though its key
is not that of the suggestion. -/
theorem suggestion_clears_group :
    labelled.Reachable ∧ (labelled.take clearFirst).1.fails = false ∧
      Tag.groupKey ≠ Suggestion.key ∧
      labelled.storedText "id-2" Tag.groupKey = some (some "spring") ∧
      (labelled.take clearFirst).2.storedText "id-2" Tag.groupKey = some none := by
  exact ⟨reachable_labelled, by decide +kernel, by decide, by decide +kernel, by decide +kernel⟩

end Session

end Billfold
