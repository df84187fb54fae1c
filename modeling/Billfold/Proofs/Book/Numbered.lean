import Billfold.Book.Basic
import Billfold.Proofs.Number.Digits

/-!
# Rows with numbers of their own

Every row has an id with a number that no other row has, and a number that was not used yet is
nobody's.  What a store gives back of a time is its wall time, so a stored time is one already.

* `numbered`          the id with a number
* `Row.Settles`       what a row keeps on its way into the book
* `Book.Numbered`     the rows of a book have different numbers, all of them used
* `Book.row?_eq_some` a look-up finds the one row with the id
* `Numbered.putRow`, `dropRow`, `addRow`   the changes of a book that keep the numbers apart
-/

namespace Billfold

def numbered (n : Nat) : String := s!"id-{n}"

theorem numbered_inj {m n : Nat} (h : numbered m = numbered n) : m = n := by
  have digits := congrArg String.toList h
  exact numeral_inj (by simpa [numbered, numeral] using digits)

theorem toList_numbered (n : Nat) : (numbered n).toList = 'i' :: 'd' :: '-' :: numeral n := by
  have front : (toString "id-").toList = ['i', 'd', '-'] := by decide +kernel
  simp [numbered, numeral, front]

theorem numbered_ne_empty (n : Nat) : numbered n ≠ "" := by
  rw [Ne, ← String.toList_inj, toList_numbered]
  exact List.cons_ne_nil _ _

/-! ## on the way into the book -/

/-- what a row keeps on its way into the book: all but the precision of its amount, the spelling of
its metadata and the offset of its stamp's time -/
structure Row.Settles (r settled : Row) : Prop where
  id : settled.id = r.id
  account : settled.account = r.account
  name : settled.name = r.name
  date : settled.date = r.date
  currency : settled.currency = r.currency
  deferred : settled.deferred = r.deferred
  month : settled.month = r.month
  lockedAt : settled.lockedAt = r.lockedAt.map Instant.wall

namespace Row

/-- the time of a row's stamp is a wall time -/
def IsWall (r : Row) : Prop := r.lockedAt.map Instant.wall = r.lockedAt

theorem settles_of_settled? {r settled : Row} (h : r.settled? = some settled) :
    r.Settles settled := by
  unfold settled? at h
  obtain ⟨amount, -, rfl⟩ := Option.map_eq_some_iff.1 h
  exact ⟨rfl, rfl, rfl, rfl, rfl, rfl, rfl, rfl⟩

theorem settles_of_over? {r old settled : Row} (h : r.over? old = some settled) :
    r.Settles settled := by
  unfold over? at h
  obtain ⟨kept, hk, rfl⟩ := Option.map_eq_some_iff.1 h
  have := settles_of_settled? hk
  exact ⟨this.1, this.2, this.3, this.4, this.5, this.6, this.7, this.8⟩

theorem Settles.isWall {r settled : Row} (h : r.Settles settled) : settled.IsWall := by
  unfold IsWall
  rw [h.lockedAt]
  cases r.lockedAt with
  | none => rfl
  | some t => rfl

end Row

/-! ## numbers apart -/

/-- the rows of a book have different numbers, all of them among the first `used` -/
structure Book.Numbered (used : Nat) (b : Book) : Prop where
  number : ∀ r ∈ b.rows, ∃ n, n ≤ used ∧ r.id = numbered n
  apart : b.rows.Pairwise fun r s => r.id ≠ s.id
  wall : ∀ r ∈ b.rows, r.IsWall

namespace Book

variable {b : Book} {used : Nat} {r old : Row} {id : String}

theorem id_of_account? {a : Account} (h : b.account? id = some a) : a.id = id := by
  simpa using List.find?_some h

theorem mem_of_row? (h : b.row? id = some r) : r ∈ b.rows := List.mem_of_find?_eq_some h

theorem row?_eq_none : b.row? id = none ↔ ∀ r ∈ b.rows, r.id ≠ id := by
  unfold row?
  rw [List.find?_eq_none]
  simp

theorem mem_putRow (h : b.row? r.id = some old) {x : Row} :
    x ∈ (b.putRow r).rows ↔ x = r ∨ (x ∈ b.rows ∧ x.id ≠ r.id) := by
  unfold putRow
  simp only [List.mem_map]
  constructor
  · rintro ⟨y, hy, rfl⟩
    split
    · exact .inl rfl
    · next hne => exact .inr ⟨hy, hne⟩
  · rintro (rfl | ⟨hx, hne⟩)
    · exact ⟨old, mem_of_row? h, by rw [if_pos (id_of_row? h)]⟩
    · exact ⟨x, hx, by rw [if_neg hne]⟩

def addRows (b : Book) (rs : List Row) : Book := { b with rows := b.rows ++ rs }

theorem addRows_nil (b : Book) : b.addRows [] = b := by
  unfold addRows
  rw [List.append_nil]

theorem addRows_cons (b : Book) (r : Row) (rs : List Row) :
    b.addRows (r :: rs) = (b.addRow r).addRows rs := by
  unfold addRows addRow
  rw [List.append_assoc, List.singleton_append]

theorem mem_addRows {b : Book} {rs : List Row} {r : Row} :
    r ∈ (b.addRows rs).rows ↔ r ∈ b.rows ∨ r ∈ rs := List.mem_append

theorem addRows_ne {b : Book} {rs : List Row} (some : 0 < rs.length) : b.addRows rs ≠ b := by
  intro same
  have length := congrArg (fun b : Book => b.rows.length) same
  unfold addRows at length
  rw [List.length_append] at length
  omega

theorem row?_addRows (b : Book) (rs : List Row) (id : String) :
    (b.addRows rs).row? id = (b.row? id).or (rs.find? fun r => r.id = id) := by
  unfold row? addRows
  rw [List.find?_append]

namespace Numbered

theorem empty (used : Nat) : Numbered used Book.empty :=
  ⟨fun _ h => (nomatch h), .nil, fun _ h => (nomatch h)⟩

/-- accounts have no part in it, and numbers may be used up without a row -/
theorem mono (h : Numbered used b) {c : Book} {more : Nat} (e : c.rows = b.rows)
    (le : used ≤ more) : Numbered more c := by
  refine ⟨?_, e ▸ h.apart, e ▸ h.wall⟩
  rw [e]
  intro r hr
  obtain ⟨n, hn, id⟩ := h.number r hr
  exact ⟨n, Nat.le_trans hn le, id⟩

theorem ne_numbered (h : Numbered used b) {n : Nat} (lt : used < n) :
    ∀ r ∈ b.rows, r.id ≠ numbered n := by
  intro r hr e
  obtain ⟨m, hm, id⟩ := h.number r hr
  have := numbered_inj (id.symm.trans e)
  omega

theorem eq_of_id (h : Numbered used b) {r s : Row} (hr : r ∈ b.rows) (hs : s ∈ b.rows)
    (e : r.id = s.id) : r = s := by
  obtain ⟨i, hi, rfl⟩ := List.getElem_of_mem hr
  obtain ⟨j, hj, rfl⟩ := List.getElem_of_mem hs
  have apart := List.pairwise_iff_getElem.1 h.apart
  rcases Nat.lt_trichotomy i j with lt | rfl | gt
  · exact absurd e (apart i j hi hj lt)
  · rfl
  · exact absurd e.symm (apart j i hj hi gt)

theorem row?_eq_some (h : Numbered used b) : b.row? id = some r ↔ r ∈ b.rows ∧ r.id = id := by
  constructor
  · intro found
    exact ⟨mem_of_row? found, id_of_row? found⟩
  · rintro ⟨hr, rfl⟩
    rcases found : b.row? r.id with _ | s
    · exact absurd rfl (row?_eq_none.1 found r hr)
    · rw [h.eq_of_id (mem_of_row? found) hr (id_of_row? found)]

theorem row?_of_added {rs : List Row} (h : Numbered used (b.addRows rs)) (hr : r ∈ rs) :
    (b.addRows rs).row? r.id = some r :=
  h.row?_eq_some.2 ⟨mem_addRows.2 (.inr hr), rfl⟩

theorem putRow (h : Numbered used b) (found : b.row? r.id = some old) (wall : r.IsWall) :
    Numbered used (b.putRow r) where
  number x hx := by
    rcases (mem_putRow found).1 hx with rfl | ⟨hx, -⟩
    · have := h.number old (mem_of_row? found)
      rwa [id_of_row? found] at this
    · exact h.number x hx
  apart := by
    have same : ∀ s : Row, (if s.id = r.id then r else s).id = s.id := by
      intro s
      split
      · next e => exact e.symm
      · rfl
    refine List.pairwise_map.2 (h.apart.imp ?_)
    intro s t ne
    rwa [same, same]
  wall x hx := by
    rcases (mem_putRow found).1 hx with rfl | ⟨hx, -⟩
    · exact wall
    · exact h.wall x hx

theorem putRow_of_mem (h : Numbered used b) (hr : r ∈ b.rows) : b.putRow r = b := by
  have same : b.rows.map (fun s => if s.id = r.id then r else s) = b.rows := by
    refine (List.map_congr_left fun s hs => ?_).trans (List.map_id _)
    split
    · next e => exact h.eq_of_id hr hs e.symm
    · rfl
  unfold Book.putRow
  rw [same]

theorem putSettled (h : Numbered used b) {settled : Row} (found : b.row? id = some old)
    (settles : r.Settles settled) (same : r.id = old.id) : Numbered used (b.putRow settled) := by
  have e : settled.id = id := (settles.id.trans same).trans (id_of_row? found)
  exact h.putRow (e ▸ found) settles.isWall

theorem dropRow (h : Numbered used b) (id : String) : Numbered used (b.dropRow id) where
  number r hr := h.number r (List.mem_filter.1 hr).1
  apart := h.apart.filter _
  wall r hr := h.wall r (List.mem_filter.1 hr).1

theorem addRow (h : Numbered used b) (id : r.id = numbered (used + 1)) (wall : r.IsWall) :
    Numbered (used + 1) (b.addRow r) where
  number x hx := by
    rcases List.mem_append.1 hx with hx | hx
    · obtain ⟨n, hn, e⟩ := h.number x hx
      exact ⟨n, Nat.le_succ_of_le hn, e⟩
    · rw [List.mem_singleton.1 hx]
      exact ⟨used + 1, Nat.le_refl _, id⟩
  apart := by
    refine List.pairwise_append.2 ⟨h.apart, List.pairwise_singleton _ _, ?_⟩
    intro x hx y hy
    rw [List.mem_singleton.1 hy, id]
    exact h.ne_numbered (Nat.lt_succ_self used) x hx
  wall x hx := by
    rcases List.mem_append.1 hx with hx | hx
    · exact h.wall x hx
    · rw [List.mem_singleton.1 hx]
      exact wall

theorem putRow_addRow (h : Numbered used b) {first : Row} (id : r.id = numbered (used + 1))
    (id' : first.id = numbered (used + 1)) : (b.addRow first).putRow r = b.addRow r := by
  unfold Book.putRow Book.addRow
  rw [List.map_append, List.map_cons, List.map_nil, if_pos (id'.trans id.symm)]
  have same : b.rows.map (fun s => if s.id = r.id then r else s) = b.rows := by
    refine (List.map_congr_left fun s hs => ?_).trans (List.map_id _)
    rw [if_neg (id ▸ h.ne_numbered (Nat.lt_succ_self used) s hs)]
    rfl
  rw [same]

end Numbered

end Book

end Billfold
