import Billfold.Proofs.Entry.Metadata
import Billfold.Proofs.Session.Reachable

/-!
# What becomes of one row

A step that finds a row keeps it, puts another version in its place, or drops it; and a row that was
not there before is one of those that creating writes.

* `Step.Touches`, `Step.isByHand`   columns of a row set, or the row dropped, by hand
* `Session.Remade`       what a step makes of the row with an id
* `Turn.remade`          the books that a step leads to, told by one row
* `Turn.new`             where a new row comes from
* `take_remade`, `take_new`   the same of each step of a session
* `drafted_of_take`      what a step that creates entries adds
* `Reachable.storeUp`    where there is a row the store is up
* `Session.Spent`        an id whose row is gone, which none gets again
-/

namespace Billfold

/-- columns of the row with an id are set, or the row is dropped, by hand -/
def Step.Touches (id : String) : Step → Prop
  | .editRow other _ => other = id
  | .deleteRow other => other = id
  | _ => False

def Step.isByHand : Step → Bool
  | .editRow _ _ => true
  | .deleteRow _ => true
  | _ => false

theorem Step.not_touches {step : Step} (h : step.isByHand = false) (id : String) :
    ¬ step.Touches id := by
  intro touches
  cases step with
  | editRow => cases h
  | deleteRow => cases h
  | _ => exact touches

/-- what a step makes of the row with an id: another version, or none -/
inductive Session.Remade (s : Session) (id : String) (old : Row) : Step → Option Row → Prop
  | kept (step : Step) : Remade s id old step (some old)
  | edited {changes : List RowChange} {changed settled : Row}
      (made : changes.foldlM Row.change old = .ok changed)
      (inPlace : changed.over? old = some settled) :
      Remade s id old (.editRow id changes) (some settled)
  | deleted : Remade s id old (.deleteRow id) none
  | updated {c : Changes} {settled : Row} (updated : old.Updated s.book s.clock c settled) :
      Remade s id old (.update id c) (some settled)
  | revised {step : Step} {change : Entry → Except Error Entry} {changed : Entry} {settled : Row}
      (asked : step.revision? = some (id, change)) (revised : old.Revised change changed settled) :
      Remade s id old step (some settled)
  | merged {request : Option String} {m : Merged} (merges : s.book.Merges old m) :
      Remade s id old (.merge id request) none

/-- what an entry keeps of its metadata has none of the keys in it that are read apart -/
theorem Row.Revised.free {row settled : Row} {change : Entry → Except Error Entry} {changed : Entry}
    {step : Step} {id key : String} (h : row.Revised change changed settled)
    (asked : step.revision? = some (id, change)) (apart : key ∈ Entry.typedKeys) :
    changed.extra.get? key = none := by
  obtain ⟨e, read, made⟩ := h.made
  obtain ⟨metadata, reads⟩ := Row.reads_of_entry read
  rw [Step.eq_of_revision asked made, reads.extra]
  exact Entry.get?_rest apart metadata

namespace Session

variable {s : Session} {step done : Step} {b : Book} {n k : Nat} {id place : String}
variable {r old row made settled : Row}

theorem not_touches_of_step? {request : Http.Request} {name : String}
    (h : request.step? name = some done) : ¬ done.Touches id := by
  rcases Http.Request.step?_cases h with ⟨_, rfl⟩ | ⟨_, _, rfl⟩ | ⟨_, rfl⟩ | ⟨_, rfl⟩
  · exact not_false
  · exact not_false
  · exact not_false
  · exact not_false

theorem Does.touches (h : Does step done) (touched : done.Touches id) : step.Touches id := by
  cases h with
  | itself own => exact touched
  | asked asked => exact absurd touched (not_touches_of_step? asked)

theorem Remade.putRow (before : s.book.row? id = some old) (found : s.book.row? place = some row)
    (settles : made.Settles settled) (same : made.id = row.id)
    (here : id = place → row = old → s.Remade id old step (some settled)) :
    s.Remade id old step ((s.book.putRow settled).row? id) := by
  have e : settled.id = place := (settles.id.trans same).trans (Book.id_of_row? found)
  subst e
  by_cases ours : id = settled.id
  · have row_eq : row = old := by
      rw [← ours, before] at found
      exact (Option.some.inj found).symm
    have there : (s.book.putRow settled).row? id = some settled := by
      rw [ours]
      exact Book.row?_putRow_self found
    rw [there]
    exact here ours row_eq
  · rw [Book.row?_putRow_of_ne _ settled ours, before]
    exact .kept step

theorem Remade.dropRow (before : s.book.row? id = some old)
    (here : id = place → s.Remade id old step none) :
    s.Remade id old step ((s.book.dropRow place).row? id) := by
  by_cases ours : id = place
  · rw [← ours, Book.row?_dropRow_self]
    exact here ours
  · rw [Book.row?_dropRow_of_ne _ ours, before]
    exact .kept step

theorem Turn.remade (turn : s.Turn done b n k) (before : s.book.row? id = some old) :
    s.Remade id old done (b.row? id) := by
  have same : s.Remade id old done (s.book.row? id) := by
    rw [before]
    exact .kept done
  cases turn with
  | same => exact same
  | opened account => exact same
  | accountEdited account => exact same
  | edited found made inPlace =>
    refine .putRow before found (Row.settles_of_over? inPlace) (Ledger.id_of_changes made) ?_
    rintro rfl rfl
    exact .edited made inPlace
  | deleted => exact .dropRow before fun e => e ▸ .deleted
  | created drafted =>
    rw [Book.row?_addRows, before]
    exact .kept _
  | updated found updated =>
    obtain ⟨_, settles, keeps⟩ := updated.settles
    refine .putRow before found settles keeps ?_
    rintro rfl rfl
    exact .updated updated
  | revised asked found revised =>
    refine .putRow before found revised.settles rfl ?_
    rintro rfl rfl
    exact .revised asked revised
  | merged found merges =>
    refine .dropRow before ?_
    rintro rfl
    rw [before] at found
    cases found
    exact .merged merges

/-- only by hand is a row given to another account -/
theorem Remade.account (h : s.Remade id old step (some r)) (untouched : ¬ step.Touches id) :
    r.account = old.account := by
  cases h with
  | kept => rfl
  | edited made inPlace => exact absurd rfl untouched
  | updated updated => exact updated.keeps.1
  | revised asked revised => exact revised.settles.account

/-- **A row that was not there before is one of those that creating writes**, and so does not take
its plan's name from another. -/
theorem Turn.new (turn : s.Turn done b n k) (absent : s.book.row? id = none)
    (after : b.row? id = some r) :
    ∃ e plan rows, done = .create e ∧ Ledger.Drafted s e plan rows ∧ r ∈ rows ∧
      k = s.usedGroups + Ledger.groupsOf plan := by
  have none_there (h : s.book.row? id = some r) : False := by
    rw [absent] at h
    cases h
  have put {settled : Row} (h : (s.book.putRow settled).row? id = some r) : False := by
    rw [Book.row?_putRow, absent] at h
    cases h
  have drop {place : String} (h : (s.book.dropRow place).row? id = some r) : False := by
    have ours := Book.id_of_row? h
    have there := (List.mem_filter.1 (Book.mem_of_row? h)).1
    exact Book.row?_eq_none.1 absent r there ours
  cases turn with
  | same => exact (none_there after).elim
  | opened account => exact (none_there after).elim
  | accountEdited account => exact (none_there after).elim
  | edited found made inPlace => exact (put after).elim
  | deleted => exact (drop after).elim
  | updated found updated => exact (put after).elim
  | revised asked found revised => exact (put after).elim
  | merged found merges => exact (drop after).elim
  | @created e plan rows drafted =>
    rw [Book.row?_addRows, absent] at after
    exact ⟨e, plan, rows, rfl, drafted, List.mem_of_find?_eq_some after, rfl⟩

/-! ## each step of a session -/

theorem take_remade (h : s.Reachable) (step : Step) (before : s.book.row? id = some old) :
    (s.take step).2.book.row? id = some old ∨
      ∃ done, Does step done ∧ s.Remade id old done ((s.take step).2.book.row? id) := by
  obtain ⟨-, _, _, -, -, ⟨same, -⟩ | ⟨done, does, turn⟩⟩ := take_turn h.numbered step
  · rw [same]
    exact .inl before
  · exact .inr ⟨done, does, turn.remade before⟩

theorem take_new (h : s.Reachable) (step : Step) (absent : s.book.row? id = none)
    (after : (s.take step).2.book.row? id = some r) :
    ∃ e plan rows, Does step (.create e) ∧ Ledger.Drafted s e plan rows ∧ r ∈ rows ∧
      s.usedGroups + Ledger.groupsOf plan ≤ (s.take step).2.usedGroups := by
  obtain ⟨-, _, _, -, le, ⟨same, -⟩ | ⟨done, does, turn⟩⟩ := take_turn h.numbered step
  · rw [same, absent] at after
    cases after
  · obtain ⟨e, plan, rows, rfl, drafted, hr, rfl⟩ := turn.new absent after
    exact ⟨e, plan, rows, does, drafted, hr, le⟩

theorem eq_of_anonymous_create {e : NewEntry} (h : done.anonymous = (Step.create e).anonymous) :
    ∃ request, done = .create { e with request } := by
  cases done with
  | create other =>
    refine ⟨other.request, congrArg Step.create ?_⟩
    have same : { other with request := none } = { e with request := none } := Step.create.inj h
    exact congrArg (fun x : NewEntry => { x with request := other.request }) same
  | _ => cases h

/-- **A step that creates entries leaves the book as it was, or adds the rows of one draft.** -/
theorem drafted_of_take {e : NewEntry} (h : s.Reachable) (does : Does step (.create e)) :
    (s.take step).2.book = s.book ∨ ∃ plan rows, Ledger.Drafted s e plan rows ∧
      (s.take step).2.book = s.book.addRows rows ∧
      s.usedIds + rows.length ≤ (s.take step).2.usedIds ∧
      s.usedGroups + Ledger.groupsOf plan ≤ (s.take step).2.usedGroups := by
  obtain ⟨-, _, _, le, le', ⟨same, -⟩ | ⟨other, does', turn⟩⟩ := take_turn h.numbered step
  · exact .inl same
  obtain ⟨request, rfl⟩ := eq_of_anonymous_create (does'.anonymous_eq does)
  generalize (s.take step).2.book = after at turn
  cases turn with
  | same => exact .inl rfl
  | created drafted => exact .inr ⟨_, _, drafted.of_request, rfl, le, le'⟩
  | revised asked => cases asked

theorem storeUp_take (h : s.Reachable) (step : Step) : (s.take step).2.storeUp = s.storeUp :=
  (take_turn h.numbered step).1

theorem le_take (h : s.Reachable) (step : Step) :
    s.usedIds ≤ (s.take step).2.usedIds ∧ s.usedGroups ≤ (s.take step).2.usedGroups := by
  obtain ⟨-, n, k, le, le', ⟨-, rfl, rfl⟩ | ⟨_, -, turn⟩⟩ := take_turn h.numbered step
  · exact ⟨le, le'⟩
  · exact ⟨Nat.le_trans turn.le.1 le, Nat.le_trans turn.le.2 le'⟩

/-- no row is ever written while the store is down -/
theorem Reachable.storeUp (h : s.Reachable) (found : s.book.row? id = some r) :
    s.storeUp = true := by
  induction h generalizing r with
  | fresh => cases found
  | @take s h step ih =>
    rw [storeUp_take h]
    cases before : s.book.row? id with
    | some old => exact ih before
    | none =>
      obtain ⟨_, _, _, -, drafted, -, -⟩ := take_new h step before found
      exact drafted.storeUp

/-- an id that was given out and has no row any more -/
structure Spent (s : Session) (id : String) : Prop where
  gone : s.book.row? id = none
  used : ∃ n, n ≤ s.usedIds ∧ id = numbered n

theorem Spent.of_gone (h : s.Reachable) (found : s.book.row? id = some r)
    (gone : (s.take step).2.book.row? id = none) : (s.take step).2.Spent id := by
  obtain ⟨n, le, id_eq⟩ := h.numbered.number r (Book.mem_of_row? found)
  exact ⟨gone, n, Nat.le_trans le (le_take h step).1, (Book.id_of_row? found).symm.trans id_eq⟩

/-- **An id is given out once.** -/
theorem Spent.take (h : s.Reachable) (spent : s.Spent id) (step : Step) :
    (s.take step).2.Spent id := by
  obtain ⟨n, le, id_eq⟩ := spent.used
  refine ⟨?_, n, Nat.le_trans le (le_take h step).1, id_eq⟩
  cases after : (s.take step).2.book.row? id with
  | none => rfl
  | some r =>
    obtain ⟨e, plan, rows, -, drafted, hr, -⟩ := take_new h step spent.gone after
    obtain ⟨_, _, _, _, -, -, -, -, -, written⟩ := drafted.written
    obtain ⟨_, -, k, _, lt, -, kept⟩ := written.exists_of_mem hr
    have same : numbered n = numbered k := by
      rw [← id_eq, ← Book.id_of_row? after, id_of_kept kept]
    have := numbered_inj same
    omega

end Session

end Billfold
