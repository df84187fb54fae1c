import Billfold.Proofs.Entry.Tag
import Billfold.Proofs.Session.Row

/-!
# Names of groups through a run

A plan gets a name that no row has, and apart from metadata that are set by hand no other row ever
gets it.

* `grouped`                   the name of a group with a number
* `Drafted.carries`, `Drafted.group_of_names`   what new rows say about their group
* `Step.Names`                metadata that name a group are set by hand
* `carries_take`              a row keeps its tag through a step
* `drafted_of_entries`        the rows of entries that were created
* `Session.LeavesName`        a name is given to no row by hand
* `names_of_take`             a row that names a group did so before, or is one of a new plan
* `only_take`                 so the rows of a group stay the same ones
* `unnamed_of_reachableBy`    a name that was not given out yet is nobody's
-/

namespace Billfold

def grouped (n : Nat) : String := s!"group-{n}"

theorem grouped_inj {m n : Nat} (h : grouped m = grouped n) : m = n := by
  have digits := congrArg String.toList h
  exact numeral_inj (by simpa [grouped, numeral] using digits)

theorem some_grouped_ne_empty (n : Nat) : some (grouped n) ≠ some "" := by
  intro h
  have := congrArg String.toList (Option.some.inj h)
  simp [grouped] at this

/-! ## new rows -/

namespace Ledger

variable {s : Session} {e : NewEntry} {plan : Option Plan} {rows : List Row} {r : Row}

theorem Planned.group_eq {amount : Decimal} {n : Nat} {p : Plan}
    (h : Planned s e amount n (some p)) :
    p.group = Act.nextGroup s := by
  cases h with
  | several more made => exact (Plan.of_ok made).1

/-- the rows of a plan carry the tags of its lines, and are for the account that was asked for -/
theorem Drafted.carries {p : Plan} (h : Drafted s e (some p) rows) (hr : r ∈ rows) :
    r.account = e.account ∧ ∃ tag, tag.group = some (Act.nextGroup s) ∧ r.Carries tag := by
  obtain ⟨account, policy, amount, n, found, -, -, -, planned, written⟩ := h.written
  obtain ⟨c, hc, k, stamp, -, -, kept⟩ := written.exists_of_mem hr
  have id := Book.id_of_account? found
  obtain ⟨line, -, rfl⟩ := List.mem_map.1 hc
  refine ⟨?_, p.tag line, congrArg some planned.group_eq, _, Row.extra_of_kept kept, fun f hf => ?_⟩
  · rw [(Row.settles_of_settled? kept).account, Row.account_stampedBy, ← id]
    rfl
  · exact Entry.get?_writeExtra_of_mem rfl hf

theorem Drafted.group_of_names {group : String} (h : Drafted s e plan rows) (hr : r ∈ rows)
    (names : r.Names group) : group = Act.nextGroup s ∧ groupsOf plan = 1 := by
  obtain ⟨account, policy, amount, n, -, -, -, -, planned, written⟩ := h.written
  obtain ⟨c, hc, k, stamp, -, -, kept⟩ := written.exists_of_mem hr
  unfold Row.Names at names
  rw [Row.extra_of_kept kept] at names
  cases plan with
  | none =>
    cases List.mem_singleton.1 hc
    obtain ⟨_, tagged, -⟩ := Row.names_of_writeExtra rfl names
    cases tagged
  | some p =>
    obtain ⟨line, -, rfl⟩ := List.mem_map.1 hc
    obtain ⟨_, tagged, named⟩ := Row.names_of_writeExtra rfl names
    cases tagged
    cases named
    exact ⟨planned.group_eq, rfl⟩

end Ledger

/-! ## rows that are there -/

def Step.Names (group : String) : Step → Prop
  | .editRow _ changes => ∃ v, .extra v ∈ changes ∧ v.NamesGroup group
  | _ => False

namespace Session

variable {s : Session} {step done : Step} {id group : String} {r old : Row} {tag : Tag} {n : Nat}

theorem Does.names (h : Does step done) (names : done.Names group) : step.Names group := by
  cases h with
  | itself own => exact names
  | asked asked =>
    rcases Http.Request.step?_cases asked with ⟨_, rfl⟩ | ⟨_, _, rfl⟩ | ⟨_, rfl⟩ | ⟨_, rfl⟩
    · exact names
    · exact names
    · exact names
    · exact names

theorem Remade.names (h : s.Remade id old step (some r)) (names : r.Names group) :
    old.Names group ∨ step.Names group := by
  cases h with
  | kept => exact .inl names
  | edited made inPlace =>
    rcases Row.names_of_changes made inPlace names with before | given
    · exact .inl before
    · exact .inr given
  | updated updated =>
    unfold Row.Names at names ⊢
    rw [Row.extra_of_updated updated] at names
    exact .inl names
  | revised asked revised =>
    have free := revised.free asked (by decide : Tag.groupKey ∈ Entry.typedKeys)
    rcases Row.names_of_written free revised.inPlace names with before | ⟨tag, tagged, named⟩
    · exact .inl before
    · obtain ⟨e, read, made⟩ := revised.made
      rw [Step.eq_of_revision asked made] at tagged
      exact .inl (Row.names_of_entry read tagged named)

/-- another version of a row carries the tag that the row carried, unless it is set by hand -/
theorem Remade.carries (h : s.Remade id old step (some r)) (carried : old.Carries tag)
    (named : tag.group ≠ some "") (untouched : ¬ step.Touches id) : r.Carries tag := by
  cases h with
  | kept => exact carried
  | edited made inPlace => exact absurd rfl untouched
  | updated updated =>
    unfold Row.Carries
    rw [Row.extra_of_updated updated]
    exact carried
  | revised asked revised =>
    obtain ⟨e, read, made⟩ := revised.made
    have tagged : e.tag = some tag := carried.tag_of_entry named read
    refine Row.carries_of_written carried ?_ revised.inPlace
    rw [Step.eq_of_revision asked made]
    exact tagged

theorem carries_take (h : s.Reachable) (found : s.book.row? id = some old)
    (carried : old.Carries tag) (named : tag.group ≠ some "") (untouched : ¬ step.Touches id)
    (after : (s.take step).2.book.row? id = some r) : r.account = old.account ∧ r.Carries tag := by
  rcases take_remade h step found with same | ⟨done, does, remade⟩
  · rw [same] at after
    cases after
    exact ⟨rfl, carried⟩
  · rw [after] at remade
    have untouched : ¬ done.Touches id := fun touches => untouched (does.touches touches)
    exact ⟨remade.account untouched, remade.carries carried named untouched⟩

theorem drafted_of_entries {e : NewEntry} {es : List Entry} (h : s.Reachable)
    (done : (s.take (.create e)).1.result = .ok (.entries es)) :
    ∃ plan rows, Ledger.Drafted s e plan rows ∧
      (s.take (.create e)).2.book = s.book.addRows rows ∧
      s.usedGroups + Ledger.groupsOf plan ≤ (s.take (.create e)).2.usedGroups ∧
      rows.mapM Row.entry = .ok es := by
  have ran := take_exec s (.create e)
  rw [done] at ran
  obtain ⟨x, ran, result⟩ := Act.exec_map_cases ran
  obtain ⟨_, rfl, same⟩ := Except.map_eq_ok.1 result.symm
  cases same
  rcases Ledger.create_drafts (s := { s with log := [] }) h.numbered ran with
    ⟨_, failed, -⟩ | ⟨plan, rows, drafted, put, -, groups, read⟩
  · cases failed
  · exact ⟨plan, rows, drafted.of_quiet (quiet_emptied s), put, groups,
      Except.liftFault_eq_ok.1 read.symm⟩

/-- a step gives no row the name of a group by hand: one that is to do so changes nothing -/
def LeavesName (s : Session) (step : Step) (group : String) : Prop :=
  step.Names group → (s.take step).2.book = s.book

theorem names_of_take (h : s.Reachable) (byHand : s.LeavesName step group)
    (after : (s.take step).2.book.row? id = some r) (names : r.Names group) :
    (∃ old, s.book.row? id = some old ∧ old.Names group) ∨
      group = Act.nextGroup s ∧ s.usedGroups + 1 ≤ (s.take step).2.usedGroups := by
  cases before : s.book.row? id with
  | none =>
    obtain ⟨e, plan, rows, -, drafted, hr, le⟩ := take_new h step before after
    obtain ⟨rfl, one⟩ := drafted.group_of_names hr names
    rw [one] at le
    exact .inr ⟨rfl, le⟩
  | some old =>
    refine .inl ⟨old, rfl, ?_⟩
    rcases take_remade h step before with same | ⟨done, does, remade⟩
    · rw [same] at after
      cases after
      exact names
    · rw [after] at remade
      rcases remade.names names with before | given
      · exact before
      · have same := byHand (does.names given)
        rw [same, before] at after
        cases after
        exact names

theorem only_take {rows : List Row} (h : s.Reachable) (byHand : s.LeavesName step (grouped n))
    (used : n ≤ s.usedGroups)
    (only : ∀ r ∈ s.book.rows, r.Names (grouped n) → ∃ p ∈ rows, p.id = r.id) :
    ∀ r ∈ (s.take step).2.book.rows, r.Names (grouped n) → ∃ p ∈ rows, p.id = r.id := by
  intro r hr names
  have found := (h.take step).numbered.row?_eq_some.2 ⟨hr, rfl⟩
  rcases names_of_take h byHand found names with ⟨old, before, names⟩ | ⟨next, -⟩
  · rw [← Book.id_of_row? before]
    exact only old (Book.mem_of_row? before) names
  · have := grouped_inj next
    omega

/-- **A name that was not given out yet is nobody's**, unless it is set by hand. -/
theorem unnamed_of_reachableBy (h : s.ReachableBy fun u step => u.LeavesName step (grouped n))
    (later : s.usedGroups < n) (found : s.book.row? id = some r) : ¬ r.Names (grouped n) := by
  induction h generalizing r with
  | fresh => cases found
  | @take s h step byHand ih =>
    intro names
    have le := (le_take h.reachable step).2
    rcases names_of_take h.reachable byHand found names with ⟨old, before, names⟩ | ⟨same, le'⟩
    · exact ih (Nat.lt_of_le_of_lt le later) before names
    · have := grouped_inj same
      omega

end Session

end Billfold
