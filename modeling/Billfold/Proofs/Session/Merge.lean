import Billfold.Proofs.Session.Reachable

/-!
# What a merge leaves behind

A merge drops the pending entry and is to keep the posted one.  Nothing asks whether the two are
one: a suggestion may name the very entry that has it, and that entry is dropped.

* `Book.MergedInto`        the posted row stays as it is, the pending one goes, no other changes
* `merged_cases`           what a merge does that comes to its end
* `merge_keeps_posted_iff` it keeps the posted row exactly if that is another one
-/

namespace Billfold

/-- the pending row goes, the posted row stays as it was, and so does every other row -/
structure Book.MergedInto (before after : Book) (id : String) (m : Merged) : Prop where
  pending : m.pending = some id
  kept : ∃ r, before.row? m.posted = some r ∧ after.row? m.posted = some r
  gone : after.row? id = none
  others : ∀ r, r.id ≠ id → (r ∈ after.rows ↔ r ∈ before.rows)

/-- the two ids that a step merged, if it merged any -/
def Outcome.merged? (o : Outcome) : Option Merged :=
  match o.result with
  | .ok (.merged m) => some m
  | _ => none

theorem Outcome.merged?_eq_some {o : Outcome} {m : Merged} :
    o.merged? = some m ↔ o.result = .ok (.merged m) := by
  unfold merged?
  constructor
  · intro h
    split at h
    · next e => cases h; exact e
    · cases h
  · intro h
    rw [h]

/-- the ids of a merge: the entry's own, and that of an entry of the book -/
theorem Book.Merges.ids {b : Book} {row : Row} {m : Merged} (h : b.Merges row m) :
    m.pending = some row.id ∧ (b.row? m.posted).isSome := by
  obtain ⟨entry, read, made⟩ := h.made
  unfold Entry.merge at made
  obtain ⟨posted, -, made⟩ := Except.bind_eq_ok.1 made
  split at made
  · next there =>
    cases made
    exact ⟨Row.id_of_entry read, (Bool.and_eq_true_iff.1 there).2⟩
  · cases made

namespace Session

open Act

variable {s : Session} {id : String} {request : Option String} {m : Merged}

/-- **A merge that comes to its end drops the row it was asked for**, and names it with one of the
rows that were there. -/
theorem merged_cases (h : (s.take (.merge id request)).1.merged? = some m) :
    m.pending = some id ∧ (s.book.row? m.posted).isSome ∧
      (s.take (.merge id request)).2.book = s.book.dropRow id := by
  have ran := take_exec s (.merge id request)
  rw [Outcome.merged?_eq_some.1 h] at ran
  obtain ⟨x, ran, e⟩ := exec_map_cases ran
  rcases Ledger.merge_cases ran with ⟨_, rfl, -⟩ | ⟨row, merged, -, found, merges, dropped, rfl⟩
  · cases e
  · cases e
    have ids := merges.ids
    rw [Book.id_of_row? found] at ids
    exact ⟨ids.1, ids.2, dropped⟩

/-- **A merge keeps the posted row exactly if it is not the pending one itself.** -/
theorem merge_keeps_posted_iff (h : (s.take (.merge id request)).1.merged? = some m) :
    s.book.MergedInto (s.take (.merge id request)).2.book id m ↔ m.posted ≠ id := by
  obtain ⟨pending, there, dropped⟩ := merged_cases h
  rw [dropped]
  constructor
  · rintro keeps rfl
    obtain ⟨r, -, kept⟩ := keeps.kept
    rw [keeps.gone] at kept
    cases kept
  · intro apart
    obtain ⟨r, found⟩ := Option.isSome_iff_exists.1 there
    refine ⟨pending, ⟨r, found, ?_⟩, Book.row?_dropRow_self _ _, fun r ne => ?_⟩
    · rw [Book.row?_dropRow_of_ne _ apart]
      exact found
    · unfold Book.dropRow
      rw [List.mem_filter]
      simp [ne]

/-! ## an entry suggested for another, and for itself -/

/-- a suggestion of an entry that no matcher stored -/
def suggesting (entryId : String) : Suggestion := ⟨entryId, .null, .medium, none, false, []⟩

/-- two purchases, and a suggestion that the first is one of them -/
def suggestedAs (entryId : String) : Session :=
  (firstPurchase.run [.create (.purchase "Tea" 1), .attach "id-2" (suggesting entryId)]).2

theorem reachable_suggestedAs (entryId : String) : (suggestedAs entryId).Reachable :=
  reachable_firstPurchase.run _

/-- the first purchase is merged into the second -/
theorem merge_keeps_posted_iff_other :
    let s := suggestedAs "id-3"
    let t := (s.take (.merge "id-2" none)).2
    s.Reachable ∧ (s.take (.merge "id-2" none)).1.merged? = some ⟨some "id-2", "id-3"⟩ ∧
      s.book.MergedInto t.book "id-2" ⟨some "id-2", "id-3"⟩ := by
  have merged : ((suggestedAs "id-3").take (.merge "id-2" none)).1.merged? =
      some ⟨some "id-2", "id-3"⟩ := by decide +kernel
  exact ⟨reachable_suggestedAs _, merged, (merge_keeps_posted_iff merged).2 (by decide)⟩

/-- **A purchase is merged into itself, and is gone.** -/
theorem merge_drops_posted :
    let s := suggestedAs "id-2"
    let t := (s.take (.merge "id-2" none)).2
    s.Reachable ∧ (s.take (.merge "id-2" none)).1.merged? = some ⟨some "id-2", "id-2"⟩ ∧
      (s.book.row? "id-2").isSome ∧ t.book.row? "id-2" = none ∧
      ¬ s.book.MergedInto t.book "id-2" ⟨some "id-2", "id-2"⟩ := by
  have merged : ((suggestedAs "id-2").take (.merge "id-2" none)).1.merged? =
      some ⟨some "id-2", "id-2"⟩ := by decide +kernel
  obtain ⟨-, there, dropped⟩ := merged_cases merged
  have gone : ((suggestedAs "id-2").take (.merge "id-2" none)).2.book.row? "id-2" = none := by
    rw [dropped]
    exact Book.row?_dropRow_self _ _
  refine ⟨reachable_suggestedAs _, merged, there, gone, fun keeps => ?_⟩
  obtain ⟨r, -, kept⟩ := keeps.kept
  rw [gone] at kept
  cases kept

end Session

end Billfold
