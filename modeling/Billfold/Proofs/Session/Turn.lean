import Billfold.Proofs.Ledger.Create
import Billfold.Proofs.Ledger.Upkeep
import Billfold.Step

/-!
# What a step makes of the book

A step leaves the book as it was, or changes it in the one way that its operation has.

* `Session.Turn`         the books that a step can lead to
* `turn_of_act`          the book after any operation of the ledger itself is one of them
-/

namespace Billfold

/-- the entry whose suggestion a step works on, unless it merges it, and what is done to it -/
def Step.revision? : Step → Option (String × (Entry → Except Error Entry))
  | .attach id g => some (id, fun e => .ok (e.attach g))
  | .dismiss id _ => some (id, Entry.dismiss)
  | .clear id _ => some (id, fun e => .ok e.clear)
  | _ => none

theorem Step.eq_of_revision {step : Step} {id : String} {change : Entry → Except Error Entry}
    (asked : step.revision? = some (id, change)) {e c : Entry} (made : change e = .ok c) :
    c = { e with suggestion := c.suggestion } := by
  cases step with
  | attach => cases asked; cases made; rfl
  | clear => cases asked; cases made; rfl
  | dismiss =>
    cases asked
    unfold Entry.dismiss at made
    split at made
    · cases made
    · cases made; rfl
  | _ => cases asked

/-- the books that a step can lead to, with the numbers that rows and plans take up -/
inductive Session.Turn (s : Session) : Step → Book → Nat → Nat → Prop
  | same (step : Step) : Turn s step s.book s.usedIds s.usedGroups
  | opened {a : NewAccount} (account : Account) :
      Turn s (.openAccount a) (s.book.addAccount account) s.usedIds s.usedGroups
  | accountEdited {id : String} {changes : List AccountChange} (account : Account) :
      Turn s (.editAccount id changes) (s.book.putAccount account) s.usedIds s.usedGroups
  | edited {id : String} {changes : List RowChange} {row changed settled : Row}
      (found : s.book.row? id = some row) (made : changes.foldlM Row.change row = .ok changed)
      (inPlace : changed.over? row = some settled) :
      Turn s (.editRow id changes) (s.book.putRow settled) s.usedIds s.usedGroups
  | deleted {id : String} : Turn s (.deleteRow id) (s.book.dropRow id) s.usedIds s.usedGroups
  | created {e : NewEntry} {plan : Option Plan} {rows : List Row}
      (drafted : Ledger.Drafted s e plan rows) :
      Turn s (.create e) (s.book.addRows rows) (s.usedIds + rows.length)
        (s.usedGroups + Ledger.groupsOf plan)
  | updated {id : String} {c : Changes} {row settled : Row} (found : s.book.row? id = some row)
      (updated : row.Updated s.book s.clock c settled) :
      Turn s (.update id c) (s.book.putRow settled) s.usedIds s.usedGroups
  | revised {step : Step} {id : String} {change : Entry → Except Error Entry} {row settled : Row}
      {changed : Entry} (asked : step.revision? = some (id, change))
      (found : s.book.row? id = some row) (revised : row.Revised change changed settled) :
      Turn s step (s.book.putRow settled) s.usedIds s.usedGroups
  | merged {id : String} {request : Option String} {row : Row} {merged : Merged}
      (found : s.book.row? id = some row) (merges : s.book.Merges row merged) :
      Turn s (.merge id request) (s.book.dropRow id) s.usedIds s.usedGroups

namespace Session

open Act

variable {s t : Session} {step : Step} {b : Book} {n k : Nat}

theorem Turn.numbered (h : s.Turn step b n k) (num : s.book.Numbered s.usedIds) : b.Numbered n := by
  cases h with
  | same => exact num
  | opened account => exact num.mono rfl (Nat.le_refl _)
  | accountEdited account => exact num.mono rfl (Nat.le_refl _)
  | edited found made inPlace =>
    exact num.putSettled found (Row.settles_of_over? inPlace) (Ledger.id_of_changes made)
  | deleted => exact num.dropRow _
  | created drafted =>
    obtain ⟨_, _, _, _, -, -, -, -, -, written⟩ := drafted.written
    exact written.numbered_addRows num
  | updated found updated =>
    obtain ⟨_, settles, same⟩ := updated.settles
    exact num.putSettled found settles same
  | revised asked found revised => exact num.putSettled found revised.settles rfl
  | merged found merges => exact num.dropRow _

theorem Turn.le (h : s.Turn step b n k) : s.usedIds ≤ n ∧ s.usedGroups ≤ k := by
  cases h with
  | created drafted => exact ⟨Nat.le_add_right _ _, Nat.le_add_right _ _⟩
  | _ => exact ⟨Nat.le_refl _, Nat.le_refl _⟩

/-- **An operation of the ledger itself leads to a book of its own kind**, uses up the numbers that
are taken up there, and leaves the store as it was. -/
theorem turn_of_act (num : s.book.Numbered s.usedIds) (own : ∀ r, step ≠ .serve r)
    {x : Except Error Reply} (h : step.act.exec s = (x, t)) :
    t.storeUp = s.storeUp ∧
      ∃ n k, n ≤ t.usedIds ∧ k ≤ t.usedGroups ∧ s.Turn step t.book n k := by
  have turn {c : Book} : s.Later t → t.book = c → s.Turn step c s.usedIds s.usedGroups →
      t.storeUp = s.storeUp ∧
        ∃ n k, n ≤ t.usedIds ∧ k ≤ t.usedGroups ∧ s.Turn step t.book n k := by
    intro later e turn
    exact ⟨later.storeUp, s.usedIds, s.usedGroups, later.usedIds, later.usedGroups, e ▸ turn⟩
  have same : s.Later t → t.book = s.book → t.storeUp = s.storeUp ∧
      ∃ n k, n ≤ t.usedIds ∧ k ≤ t.usedGroups ∧ s.Turn step t.book n k :=
    fun later e => turn later e (.same step)
  have inquiry : Within Session.Quiet step.act → t.storeUp = s.storeUp ∧
      ∃ n k, n ≤ t.usedIds ∧ k ≤ t.usedGroups ∧ s.Turn step t.book n k :=
    fun quiet => same (quiet.of_exec h).later (quiet.of_exec h).book
  cases step with
  | serve r => exact absurd rfl (own r)
  | openAccount a =>
    obtain ⟨x, ran, -⟩ := exec_map_cases h
    have later : s.Later t := (Ledger.within_openAccount a).of_exec ran
    rcases Ledger.openAccount_cases ran with ⟨_, -, e⟩ | ⟨account, -, e⟩
    · exact same later e
    · exact turn later e (.opened account)
  | editAccount id changes =>
    obtain ⟨x, ran, -⟩ := exec_map_cases h
    have later : s.Later t := (Ledger.within_editAccount id changes).of_exec ran
    rcases Ledger.editAccount_cases ran with e | ⟨-, account, e⟩
    · exact same later e
    · exact turn later e (.accountEdited account)
  | editRow id changes =>
    obtain ⟨x, ran, -⟩ := exec_map_cases h
    have later : s.Later t := (Ledger.within_editRow id changes).of_exec ran
    rcases Ledger.editRow_cases ran with e | ⟨-, row, changed, settled, found, made, inPlace, e⟩
    · exact same later e
    · exact turn later e (.edited found made inPlace)
  | deleteRow id =>
    obtain ⟨x, ran, -⟩ := exec_map_cases h
    have later : s.Later t := (Ledger.within_deleteRow id).of_exec ran
    rcases Ledger.deleteRow_cases ran with ⟨-, e⟩ | ⟨-, e⟩
    · exact same later e
    · exact turn later e .deleted
  | create e =>
    obtain ⟨x, ran, -⟩ := exec_map_cases h
    have later := (Ledger.later_create _).of_exec ran
    rcases Ledger.create_drafts num ran with ⟨_, -, e⟩ | ⟨plan, rows, drafted, e, used, groups, -⟩
    · exact same later e
    · exact ⟨later.storeUp, _, _, Nat.le_of_eq used.symm, groups, e ▸ .created drafted⟩
  | update id c =>
    obtain ⟨x, ran, -⟩ := exec_map_cases h
    have later := (Ledger.later_update id c).of_exec ran
    rcases Ledger.update_cases ran with ⟨_, -, e⟩ | ⟨row, settled, -, found, updated, e, -⟩
    · exact same later e
    · exact turn later e (.updated found updated)
  | attach id suggestion =>
    obtain ⟨x, ran, -⟩ := exec_map_cases h
    have later := (Ledger.later_revise id _).of_exec ran
    rcases Ledger.revise_cases ran with ⟨_, -, e⟩ | ⟨row, changed, settled, -, found, revised, e, -⟩
    · exact same later e
    · exact turn later e (.revised rfl found revised)
  | dismiss id request =>
    obtain ⟨x, ran, -⟩ := exec_map_cases h
    rw [Ledger.dismiss_eq] at ran
    have later := (Ledger.later_told id _ request _).of_exec ran
    rcases Ledger.told_cases ran with ⟨_, -, e⟩ | ⟨row, changed, settled, -, found, revised, e, -⟩
    · exact same later e
    · exact turn later e (.revised rfl found revised)
  | clear id request =>
    obtain ⟨x, ran, -⟩ := exec_map_cases h
    rw [Ledger.clear_eq] at ran
    have later := (Ledger.later_told id _ request _).of_exec ran
    rcases Ledger.told_cases ran with ⟨_, -, e⟩ | ⟨row, changed, settled, -, found, revised, e, -⟩
    · exact same later e
    · exact turn later e (.revised rfl found revised)
  | merge id request =>
    obtain ⟨x, ran, -⟩ := exec_map_cases h
    have later := (Ledger.later_merge id request).of_exec ran
    rcases Ledger.merge_cases ran with ⟨_, -, e⟩ | ⟨row, merged, -, found, merges, e, -⟩
    · exact same later e
    · exact turn later e (.merged found merges)
  | paymentInfo id => exact inquiry (within_map _ (Ledger.within_paymentInfo id))
  | group account name => exact inquiry (within_map _ (Ledger.within_group account name))
  | billingCycle account reference =>
    exact inquiry
      (within_bind (Ledger.within_billingCycle account reference) fun _ => within_pure _)
  | listRows => exact inquiry (within_map _ (within_bind within_book fun _ => within_pure _))
  | metrics => exact inquiry (within_bind within_get fun _ => within_pure _)
  | setClock now =>
    cases h
    exact ⟨rfl, s.usedIds, s.usedGroups, Nat.le_refl _, Nat.le_refl _, .same _⟩
  | refuseRow r =>
    cases h
    exact ⟨rfl, s.usedIds, s.usedGroups, Nat.le_refl _, Nat.le_refl _, .same _⟩

end Session

end Billfold
