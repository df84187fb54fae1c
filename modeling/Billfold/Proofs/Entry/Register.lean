import Billfold.Proofs.Entry.Codec
import Billfold.Proofs.Json.Same
import Billfold.Proofs.Ledger.Apart

/-!
# The suggestion of a row, written over and over

Work on a suggestion writes the whole metadata map of a row anew.  The map is made of what was read,
and writing another one over it leaves what writing that alone leaves, up to equal values: a map
that is equal to the stored one is not written.

* `Row.rewritten`        a row with another map, where that is not equal to its own
* `Row.SameAs`           rows with the same columns and equal metadata
* `rewritten_rewritten`  the last map counts
* `Entry.Alike`          entries that nobody can tell apart
* `entry_of_rewritten`   what is read of a row with another suggestion
-/

namespace Billfold

namespace Suggestion

variable {g : Suggestion}

/-- what the suggestion holds has each key once -/
structure Proper (g : Suggestion) : Prop where
  reason : g.reason.Proper
  raw : (Json.object g.raw).Proper

theorem Proper.stored (h : g.Proper) : (Json.object g.stored).Proper := by
  have base : g.base.Each Json.Proper := by
    unfold Suggestion.base
    split
    · exact each_fields (fun _ => trivial) h.reason
    · exact Json.proper_object_iff.1 h.raw
  exact Json.proper_object_iff.2 (base.set "dismissed" trivial)

theorem Alike.refl (g : Suggestion) : g.Alike g := ⟨rfl, rfl, rfl, rfl, rfl, rfl⟩

theorem Alike.symm {t : Suggestion} (h : g.Alike t) : t.Alike g :=
  ⟨h.entryId.symm, h.reason.symm, h.confidence.symm, h.postedAmount.symm, h.dismissed.symm,
    h.stored.symm⟩

theorem dismissed_self (marked : g.dismissed = true) : { g with dismissed := true } = g := by
  rw [← marked]

end Suggestion

namespace Row

variable {row r r' : Row} {e : Entry} {fields u w : Fields}

/-- the row with a map in the place of its own, which stays if the two are equal -/
def rewritten (row : Row) (w : Fields) : Row :=
  { row with extra := if (Json.object w).same row.extra then row.extra else .object w }

structure SameAs (r r' : Row) : Prop where
  columns : r = { r' with extra := r.extra }
  extra : r.extra.same r'.extra = true

theorem rewritten_of_same (same : (Json.object w).same row.extra = true) :
    row.rewritten w = row := by
  unfold rewritten
  rw [if_pos same]

theorem rewritten_of_not_same (differ : ¬(Json.object w).same row.extra = true) :
    row.rewritten w = { row with extra := .object w } := by
  unfold rewritten
  rw [if_neg differ]

theorem SameAs.refl (proper : row.extra.Proper) : row.SameAs row := ⟨rfl, Json.same_refl proper⟩

/-- **The last map that is written counts**, whichever was written before it. -/
theorem rewritten_rewritten (proper : row.extra.Proper) (proper_u : (Json.object u).Proper)
    (proper_w : (Json.object w).Proper) :
    ((row.rewritten u).rewritten w).SameAs (row.rewritten w) := by
  by_cases kept : (Json.object u).same row.extra = true
  · rw [rewritten_of_same kept]
    by_cases same : (Json.object w).same row.extra = true
    · rw [rewritten_of_same same]
      exact .refl proper
    · rw [rewritten_of_not_same same]
      exact ⟨rfl, Json.same_refl proper_w⟩
  · rw [rewritten_of_not_same kept]
    by_cases again : (Json.object w).same (.object u) = true
    · -- equal to the map before, so not equal to the one before that
      have back := Json.same_symm proper_w proper_u again
      have differ : ¬(Json.object w).same row.extra = true := fun same =>
        kept (Json.same_trans proper_w back same)
      rw [rewritten_of_same again, rewritten_of_not_same differ]
      exact ⟨rfl, back⟩
    · rw [rewritten_of_not_same again]
      by_cases same : (Json.object w).same row.extra = true
      · rw [rewritten_of_same same]
        exact ⟨rfl, same⟩
      · rw [rewritten_of_not_same same]
        exact ⟨rfl, Json.same_refl proper_w⟩

theorem rewritten_self (row : Row) (w : Fields) :
    (row.rewritten w).rewritten w = row.rewritten w := by
  by_cases same : (Json.object w).same row.extra = true
  · rw [rewritten_of_same same, rewritten_of_same same]
  · rw [rewritten_of_not_same same]
    unfold rewritten
    split <;> rfl

theorem proper_rewritten (proper : row.extra.Proper) (proper_w : (Json.object w).Proper) :
    (row.rewritten w).extra.Proper := by
  unfold rewritten
  dsimp only
  split
  · exact proper
  · exact proper_w

end Row

/-! ## metadata maps -/

namespace Metadata

variable {items : List Json} {pairs made : List (Json × Json)} {fields : Fields} {v : Json}

theorem proper_pairOf {key value : Json} (h : pairOf v = .ok (key, value)) (proper : v.Proper) :
    value.Proper := by
  unfold pairOf at h
  split at h
  · cases h
    exact proper.2.1
  · cases h
  · split at h
    · cases h
      trivial
    · cases h
  · cases h
    trivial
  · cases h
  · cases h
  · cases h

theorem proper_put {key value : Json} (proper : value.Proper)
    (each : ∀ p ∈ pairs, p.2.Proper) : ∀ p ∈ put key value pairs, p.2.Proper := by
  induction pairs with
  | nil => exact List.forall_mem_singleton.2 proper
  | cons p pairs ih =>
    obtain ⟨first, rest⟩ := List.forall_mem_cons.1 each
    unfold put
    split
    · exact List.forall_mem_cons.2 ⟨proper, rest⟩
    · exact List.forall_mem_cons.2 ⟨first, ih rest⟩

theorem proper_pairsOf (h : pairsOf items = .ok made) (proper : ∀ v ∈ items, v.Proper) :
    ∀ p ∈ made, p.2.Proper := by
  have from_pairs : ∀ p ∈ ([] : List (Json × Json)), p.2.Proper := nofun
  unfold pairsOf at h
  generalize ([] : List (Json × Json)) = pairs at h from_pairs
  induction items generalizing pairs with
  | nil =>
    cases h
    exact from_pairs
  | cons item items ih =>
    obtain ⟨first, rest⟩ := List.forall_mem_cons.1 proper
    rw [List.foldlM_cons] at h
    obtain ⟨next, step, h⟩ := Except.bind_eq_ok.1 h
    obtain ⟨⟨key, value⟩, pair, step⟩ := Except.bind_eq_ok.1 step
    dsimp only at step
    split at step
    · cases step
      exact ih rest _ h (proper_put (proper_pairOf pair first) from_pairs)
    · cases step

theorem each_ofValue (h : ofValue v = .ok fields) (proper : v.Proper) :
    fields.Each Json.Proper := by
  unfold ofValue at h
  split at h
  · split at h
    · cases h
      exact Json.proper_object_iff.1 proper
    · obtain ⟨pairs, made, h⟩ := Except.bind_eq_ok.1 h
      cases h
      obtain ⟨keys, from_pairs⟩ :=
        Fields.ofPairs_spec (pairs.map fun p => (keyText p.1, p.2))
      refine ⟨keys, fun f mem => ?_⟩
      obtain ⟨p, there, rfl⟩ := List.mem_map.1 (from_pairs f mem)
      exact proper_pairsOf made (Json.properItems_iff.1 proper) p there
    · cases h
    · cases h
    · cases h
  · cases h
    exact ⟨List.nodup_nil, nofun⟩

end Metadata

/-! ## entries -/

namespace Entry

variable {e e' : Entry} {fields : Fields} {g : Suggestion}

structure Alike (e e' : Entry) : Prop where
  columns : e = { e' with suggestion := e.suggestion }
  suggestion : Option.Rel Suggestion.Alike e.suggestion e'.suggestion

theorem alike_attach {g g' : Suggestion} (e : Entry) (h : g.Alike g') :
    (e.attach g).Alike (e.attach g') := ⟨rfl, .some h⟩

theorem writeExtra_attach {g g' : Suggestion} (e : Entry) (h : g.stored = g'.stored) :
    (e.attach g).writeExtra = (e.attach g').writeExtra := by
  unfold writeExtra attach
  simp only [h]

theorem Keeps.faithful (h : e.Keeps fields) (suggested : e.suggestion = some g) : g.Faithful := by
  obtain ⟨raw, some_field, -, rfl⟩ := Suggestion.fields_of_read (h.suggestion ▸ suggested)
  exact Suggestion.faithful_ofFields some_field

theorem Keeps.read_attach (h : e.Keeps fields) (g : Suggestion) :
    Suggestion.read (e.attach g).writeExtra = some (.ofFields g.stored) := by
  have free : (e.attach g).extra.get? Suggestion.key = none := h.free (by decide)
  have found : (e.attach g).writeExtra.get? Suggestion.key = some (.object g.stored) :=
    get?_writeExtra free
  exact Suggestion.read_of_get? g.stored_ne_nil found

theorem Keeps.get?_clear (h : e.Keeps fields) :
    e.clear.writeExtra.get? Suggestion.key = none := by
  have free : e.clear.extra.get? Suggestion.key = none := h.free (by decide)
  exact get?_writeExtra free

theorem Keeps.readExtra (h : e.Keeps fields) (suggestion : Option Suggestion) :
    Entry.readExtra (.object { e with suggestion := suggestion }.writeExtra) =
      .ok ⟨Suggestion.read { e with suggestion := suggestion }.writeExtra, e.tag, e.extra⟩ := by
  have tag : Tag.read { e with suggestion := suggestion }.writeExtra = .ok e.tag :=
    read_tag_written (e := { e with suggestion := suggestion }) h.tag h.extra
  rw [readExtra_of_tag tag, rest_writeExtra]
  show _ = Except.ok (Extra.mk _ e.tag e.extra)
  rw [h.extra, rest_rest]

theorem Keeps.proper (h : e.Keeps fields) (proper : fields.Each Json.Proper)
    {suggestion : Option Suggestion} (given : ∀ g ∈ suggestion, (Json.object g.stored).Proper) :
    (Json.object { e with suggestion := suggestion }.writeExtra).Proper := by
  have rest : e.extra.Each Json.Proper := by
    rw [h.extra]
    exact proper.rest
  refine Json.proper_object_iff.2 (each_writeExtra rest given ?_)
  intro tag tagged f mem
  simp only [Tag.stored, List.mem_cons, List.not_mem_nil, or_false] at mem
  rcases mem with rfl | rfl | rfl | rfl
  · cases tag.group <;> trivial
  · trivial
  · trivial
  · trivial

theorem Keeps.proper_stored (h : e.Keeps fields) (proper : fields.Each Json.Proper)
    (suggested : e.suggestion = some g) (dismissed : Bool) :
    (Json.object { g with dismissed := dismissed }.stored).Proper := by
  obtain ⟨raw, some_field, found, rfl⟩ := Suggestion.fields_of_read (h.suggestion ▸ suggested)
  have raw_proper := Json.proper_object_iff.1 (proper.values _ (Fields.mem_of_get? found))
  cases raw with
  | nil => exact absurd rfl some_field
  | cons f raw => exact Json.proper_object_iff.2 (raw_proper.set "dismissed" trivial)

theorem Keeps.proper_clear (h : e.Keeps fields) (proper : fields.Each Json.Proper) :
    (Json.object e.clear.writeExtra).Proper := h.proper proper nofun

end Entry

namespace Row

variable {row : Row} {e : Entry} {fields : Fields} {g : Suggestion}

theorem entry_of_extra {x : Json} {m : Entry.Extra} (h : row.entry = .ok e)
    (read : Entry.readExtra x = .ok m) :
    { row with extra := x }.entry =
      .ok { e with suggestion := m.suggestion, tag := m.tag, extra := m.rest } := by
  unfold entry at h ⊢
  obtain ⟨_, -, h⟩ := Except.bind_eq_ok.1 h
  obtain ⟨amount, cents, h⟩ := Except.bind_eq_ok.1 h
  cases h
  exact Except.bind_eq_ok.2 ⟨m, read, Except.bind_eq_ok.2 ⟨amount, cents, rfl⟩⟩

theorem entry_of_rewritten (map : Metadata.ofValue row.extra = .ok fields) (h : row.entry = .ok e)
    (suggestion : Option Suggestion) :
    ∃ now : Fields,
      Metadata.ofValue (row.rewritten { e with suggestion := suggestion }.writeExtra).extra =
        .ok now ∧
      (row.rewritten { e with suggestion := suggestion }.writeExtra).entry =
        .ok { e with suggestion := Suggestion.read now } := by
  have keeps := keeps_of_map map h
  by_cases same : (Json.object { e with suggestion := suggestion }.writeExtra).same row.extra = true
  · rw [rewritten_of_same same]
    refine ⟨fields, map, h.trans ?_⟩
    rw [← keeps.suggestion]
  · rw [rewritten_of_not_same same]
    exact ⟨_, Metadata.ofValue_object _, entry_of_extra h (keeps.readExtra suggestion)⟩

theorem entry_of_written (map : Metadata.ofValue row.extra = .ok fields) (h : row.entry = .ok e)
    (differ : ¬(Json.object (e.attach g).writeExtra).same row.extra = true) :
    (row.rewritten (e.attach g).writeExtra).entry = .ok (e.attach (.ofFields g.stored)) := by
  have keeps := keeps_of_map map h
  have read := entry_of_extra h (keeps.readExtra (some g))
  rw [rewritten_of_not_same differ]
  refine read.trans ?_
  show Except.ok { e with suggestion := Suggestion.read (e.attach g).writeExtra } = _
  rw [keeps.read_attach]
  rfl

/-- **A row that was cleared has no suggestion**, and reads as the cleared entry. -/
theorem entry_of_cleared (map : Metadata.ofValue row.extra = .ok fields) (h : row.entry = .ok e)
    (each : fields.Each Json.Proper) : (row.rewritten e.clear.writeExtra).entry = .ok e.clear := by
  have keeps := keeps_of_map map h
  have absent := keeps.get?_clear
  by_cases same : (Json.object e.clear.writeExtra).same row.extra = true
  · -- the stored map has no more keys than the equal one that would be written
    rw [rewritten_of_same same, h]
    have free : fields.get? Suggestion.key = none := by
      obtain ⟨ys, extra, -⟩ := Json.same_object same
      rw [extra, Metadata.ofValue_object] at map
      cases map
      rw [extra] at same
      exact Json.get?_none_of_same (keeps.proper_clear each) same absent
    have read : e.suggestion = none := by
      rw [keeps.suggestion]
      unfold Suggestion.read Fields.get
      rw [free]
      rfl
    show Except.ok e = Except.ok { e with suggestion := none }
    rw [← read]
  · have read := entry_of_extra h (keeps.readExtra none)
    rw [rewritten_of_not_same same]
    refine read.trans ?_
    show Except.ok { e with suggestion := Suggestion.read e.clear.writeExtra } = _
    unfold Suggestion.read Fields.get
    rw [absent]
    rfl

end Row

end Billfold
