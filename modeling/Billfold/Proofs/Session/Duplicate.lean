import Billfold.Proofs.Entry.Metadata
import Billfold.Proofs.Json.Views
import Billfold.Proofs.Session.Resolve

/-!
# A suggestion through a whole run

What is stored of a suggestion decides what can be done with it, and only attaching and clearing
open it again once it is dismissed.

* `Row.tidy_of_reachableBy`   a row not set by hand says whether its suggestion is dismissed
* `dismissed_take`            a dismissed suggestion stays one
* `Book.Mergeable`            what is stored of a suggestion that can be merged
* `Session.HoldsDismissed`    a dismissed suggestion, and all merges refused
* `Session.Forgets`           an entry gone, and all that is asked of it refused
* `suggestion_resolved`       these three over all runs
-/

namespace Billfold

open Act

/-! ## merging -/

namespace Entry

theorem merge_isOk {e : Entry} {isPosted : String → Bool} :
    (∃ m, e.merge isPosted = .ok m) ↔ ∃ g, e.suggestion = some g ∧ g.dismissed = false ∧
      g.entryId ≠ "" ∧ isPosted g.entryId = true := by
  have target (id : String) : e.activeTarget = .ok id ↔
      ∃ g, e.suggestion = some g ∧ g.dismissed = false ∧ g.entryId = id := by
    unfold activeTarget
    cases e.suggestion with
    | none => simp
    | some g => cases open_ : g.dismissed <;> simp [open_]
  have known (id : String) :
      (!id.isEmpty && isPosted id) = true ↔ id ≠ "" ∧ isPosted id = true := by
    rw [Bool.and_eq_true_iff, Bool.not_eq_true', ← Bool.not_eq_true, String.isEmpty_iff]
  unfold merge
  constructor
  · rintro ⟨m, h⟩
    obtain ⟨id, named, h⟩ := Except.bind_eq_ok.1 h
    obtain ⟨g, given, open_, rfl⟩ := (target id).1 named
    split at h
    · next there =>
      obtain ⟨some, posted⟩ := (known _).1 there
      exact ⟨g, given, open_, some, posted⟩
    · cases h
  · rintro ⟨g, given, open_, some, posted⟩
    have named := (target g.entryId).2 ⟨g, given, open_, rfl⟩
    refine ⟨⟨e.id, g.entryId⟩, Except.bind_eq_ok.2 ⟨g.entryId, named, ?_⟩⟩
    rw [if_pos ((known _).2 ⟨some, posted⟩)]
    rfl

end Entry

/-- what the merge of an entry gives whose posted one is looked up in the book -/
def Book.merge (b : Book) (e : Entry) : Except Error Merged :=
  if e.canLookUp then e.merge fun posted => (b.row? posted).isSome
  else .error (.fault .unwritableText)

theorem Book.merge_eq_ok {b : Book} {e : Entry} {m : Merged} :
    b.merge e = .ok m ↔
      e.canLookUp = true ∧ e.merge (fun posted => (b.row? posted).isSome) = .ok m := by
  unfold Book.merge
  cases e.canLookUp with
  | false => exact ⟨nofun, fun h => nomatch h.1⟩
  | true => exact ⟨fun h => ⟨rfl, h⟩, fun h => h.2⟩

namespace Ledger

variable {s : Session} {id : String} {row : Row}

theorem exec_transact {α : Type} (act : Act α) (s : Session) :
    (transact act).exec s = match act.exec s with
      | (.ok a, t) => (.ok a, t)
      | (.error e, t) => (.error e, { t with book := s.book }) := rfl

theorem result_merge (up : s.storeUp = true) (found : s.book.row? id = some row)
    (request : Option String) :
    ((merge id request).exec s).1 = Except.liftFault row.entry >>= s.book.merge := by
  unfold merge
  rw [exec_bind, exec_transact]
  simp only [exec_bind, exec_book, exec_require, exec_ofFault, up, if_pos, found]
  cases Except.liftFault row.entry with
  | error e => rfl
  | ok entry =>
    show _ = s.book.merge entry
    unfold Book.merge
    dsimp only
    rw [exec_needWritable]
    cases entry.canLookUp with
    | false => rfl
    | true =>
    rw [if_pos rfl, if_pos rfl]
    cases entry.merge fun posted => (s.book.row? posted).isSome with
    | error e => rfl
    | ok m =>
      obtain ⟨v, told, -⟩ := exec_recordResolution request id .merge (some m.posted)
        { s with book := s.book.dropRow row.id }
      have dropped : (setBook (s.book.dropRow row.id)).exec s =
          (.ok (), { s with book := s.book.dropRow row.id }) := rfl
      have given : (ofResult (Except.ok m : Except Error Merged)).exec s = (.ok m, s) := rfl
      have kept (t : Session) : (pure m : Act Merged).exec t = (.ok m, t) := rfl
      simp only [given, dropped, kept, told]

theorem exec_rowFor_none (up : s.storeUp = true) (absent : s.book.row? id = none) :
    (rowFor id).exec s = (.error (.notFound (.entry id)), s) := by
  unfold rowFor
  simp only [exec_bind, exec_book, exec_require, up, if_pos, absent]

end Ledger

def Step.entry? : Step → Option String
  | .update id _ => some id
  | .paymentInfo id => some id
  | .attach id _ => some id
  | .dismiss id _ => some id
  | .clear id _ => some id
  | .merge id _ => some id
  | _ => none

theorem Step.result_of_absent {s : Session} {step : Step} {id : String} (up : s.storeUp = true)
    (absent : s.book.row? id = none) (asked : step.entry? = some id) :
    ∃ what, (step.act.exec s).1 = .error (.notFound what) := by
  have looked := Ledger.exec_rowFor_none up absent
  have revised (change : Entry → Except Error Entry) :
      (Ledger.revise id change).exec s = (.error (.notFound (.entry id)), s) := by
    unfold Ledger.revise
    rw [Ledger.exec_transact, exec_bind, looked]
  have told (change : Entry → Except Error Entry) (request : Option String) (how : Resolution) :
      (Ledger.told id change request how).exec s = (.error (.notFound (.entry id)), s) := by
    unfold Ledger.told
    rw [exec_bind, revised]
  cases step with
  | update other c =>
    cases asked
    refine ⟨.entry id, ?_⟩
    show ((Reply.entry <$> Ledger.update id c).exec s).1 = _
    unfold Ledger.update
    rw [exec_map, exec_bind, Ledger.exec_transact, exec_bind, looked]
    rfl
  | paymentInfo other =>
    cases asked
    refine ⟨.entry id, ?_⟩
    show ((Reply.info <$> Ledger.paymentInfo id).exec s).1 = _
    unfold Ledger.paymentInfo
    rw [exec_map, exec_bind, looked]
    rfl
  | attach other g =>
    cases asked
    refine ⟨.entry id, ?_⟩
    show ((Reply.entry <$> Ledger.revise id _).exec s).1 = _
    rw [exec_map, revised]
    rfl
  | dismiss other request =>
    cases asked
    refine ⟨.entry id, ?_⟩
    show ((Reply.entry <$> Ledger.told id _ request .dismiss).exec s).1 = _
    rw [exec_map, told]
    rfl
  | clear other request =>
    cases asked
    refine ⟨.entry id, ?_⟩
    show ((Reply.entry <$> Ledger.told id _ request .clear).exec s).1 = _
    rw [exec_map, told]
    rfl
  | merge other request =>
    cases asked
    refine ⟨.noEntry, ?_⟩
    show ((Reply.merged <$> Ledger.merge id request).exec s).1 = _
    unfold Ledger.merge
    rw [exec_map, exec_bind, Ledger.exec_transact]
    simp only [exec_bind, exec_book, exec_require, up, if_pos, absent]
    rfl
  | _ => cases asked

/-! ## what is stored of a suggestion -/

namespace Row

variable {s : Session} {step : Step} {id : String} {row settled r : Row} {changed : Entry}
variable {change : Entry → Except Error Entry}

theorem Revised.dismissed (h : row.Revised Entry.dismiss changed settled) (tidy : row.Tidy) :
    settled.Dismissed := by
  have asked : (Step.dismiss "" none).revision? = some ("", Entry.dismiss) := rfl
  have free := h.free asked (by decide : Suggestion.key ∈ Entry.typedKeys)
  obtain ⟨e, -, made⟩ := h.made
  unfold Entry.dismiss at made
  split at made
  · cases made
  · cases made
    exact dismissed_of_written tidy free rfl rfl h.inPlace

theorem Dismissed.not_merges {b : Book} {m : Merged} (h : row.Dismissed) : ¬ b.Merges row m := by
  rintro ⟨e, read, made⟩
  unfold Entry.merge at made
  rw [h.activeTarget read] at made
  cases made

theorem tidy_of_created {e : NewEntry} {rows : List Row} (h : Ledger.Created s e rows)
    (hr : r ∈ rows) : r.Tidy := by
  obtain ⟨account, policy, entries, -, -, -, asked, written⟩ := h.written
  obtain ⟨c, hc, k, stamp, -, -, kept⟩ := written.exists_of_mem hr
  have plain := asked c hc
  have free : c.extra.get? Suggestion.key = none := by
    rw [plain.extra]
    rfl
  refine ⟨c.writeExtra, extra_of_kept kept, fun v found => ?_⟩
  rw [Entry.get?_writeExtra free, plain.suggestion] at found
  cases found

theorem tidy_of_reachableBy (h : s.ReachableBy fun _ step => ¬ step.Touches id)
    (found : s.book.row? id = some r) : r.Tidy := by
  induction h generalizing r with
  | fresh => cases found
  | @take s h step untouched ih =>
    cases before : s.book.row? id with
    | none =>
      obtain ⟨e, plan, rows, -, drafted, hr, -⟩ := Session.take_new h.reachable step before found
      exact tidy_of_created drafted.created hr
    | some old =>
      have tidy := ih before
      rcases Session.take_remade h.reachable step before with same | ⟨done, does, remade⟩
      · rw [same] at found
        cases found
        exact tidy
      · rw [found] at remade
        cases remade with
        | kept => exact tidy
        | edited made inPlace => exact absurd (does.touches rfl) untouched
        | updated updated =>
          unfold Tidy
          rw [extra_of_updated updated]
          exact tidy
        | revised asked revised =>
          exact tidy_of_written tidy (revised.free asked (by decide)) revised.inPlace

end Row

namespace Session

variable {s t : Session} {step done : Step} {id : String} {row : Row}

theorem Does.eq_of_revision {change : Entry → Except Error Entry} (does : Does step done)
    (asked : done.revision? = some (id, change)) :
    step = done ∨ ∃ request, done = .dismiss id request := by
  cases does with
  | itself own => exact .inl rfl
  | asked given =>
    rcases Http.Request.step?_cases given with ⟨_, rfl⟩ | ⟨_, _, rfl⟩ | ⟨_, rfl⟩ | ⟨_, rfl⟩
    · cases asked
    · cases asked
    · cases asked
    · cases asked
      exact .inr ⟨_, rfl⟩

/-- **A dismissed suggestion stays one** until it is replaced, or the row is set or dropped by
hand. -/
theorem dismissed_take (h : s.ReachableBy fun _ step => ¬ step.Touches id)
    (found : s.book.row? id = some row) (dismissed : row.Dismissed)
    (untouched : ¬ step.Touches id) (kept : ¬ s.Replaces step id) :
    ∃ r, (s.take step).2.book.row? id = some r ∧ r.Dismissed := by
  -- what could replace the suggestion fails, and a request over the wire can only dismiss it
  by_cases replacing : step.resolution? = some (.clear, id) ∨ ∃ g, step = .attach id g
  · rw [keeps_of_fails replacing kept]
    exact ⟨row, found, dismissed⟩
  rcases take_remade h.reachable step found with same | ⟨done, does, remade⟩
  · exact ⟨row, same, dismissed⟩
  generalize (s.take step).2.book.row? id = after at remade
  cases remade with
  | kept => exact ⟨row, rfl, dismissed⟩
  | edited made inPlace => exact absurd (does.touches rfl) untouched
  | deleted => exact absurd (does.touches rfl) untouched
  | updated updated =>
    refine ⟨_, rfl, ?_⟩
    unfold Row.Dismissed
    rw [Row.extra_of_updated updated]
    exact dismissed
  | merged merges => exact absurd merges dismissed.not_merges
  | revised asked revised =>
    refine ⟨_, rfl, ?_⟩
    have tidy := Row.tidy_of_reachableBy h found
    rcases does.eq_of_revision asked with rfl | ⟨request, rfl⟩
    · cases step with
      | dismiss => cases asked; exact revised.dismissed tidy
      | attach => cases asked; exact absurd (.inr ⟨_, rfl⟩) replacing
      | clear => cases asked; exact absurd (.inl rfl) replacing
      | _ => cases asked
    · cases asked
      exact revised.dismissed tidy

end Session

/-! ## over all runs -/

theorem Suggestion.text_of_idOf {v : Json} {n : Nat} (named : idOf v = numbered n) :
    ∃ t, v = .text t := by
  cases v with
  | null => exact absurd named.symm (numbered_ne_empty n)
  | _ => exact Json.text_of_words ((congrArg String.toList named).trans (toList_numbered n))

theorem Suggestion.hasWholeId_of_numbered {raw : Fields} {n : Nat}
    (named : (ofFields raw).entryId = numbered n) : (ofFields raw).hasWholeId = true := by
  obtain ⟨t, text⟩ := text_of_idOf named
  show (raw.get "entry_id").words?.isSome = true
  rw [text]
  rfl

/-- what is stored of a suggestion that can be merged: it is not dismissed and names a row -/
structure Book.Mergeable (b : Book) (row : Row) : Prop where
  some : row.suggested ≠ []
  undismissed : row.suggested.get "dismissed" ≠ .bool true
  named : Suggestion.idOf (row.suggested.get "entry_id") ≠ ""
  posted : (b.row? (Suggestion.idOf (row.suggested.get "entry_id"))).isSome

/-- a row is stored with a dismissed suggestion, and whatever asks to merge it is refused; where the
row can be read the refusal says that nothing is there to merge -/
structure Session.HoldsDismissed (s : Session) (id : String) : Prop where
  stored : ∃ row, s.book.row? id = some row ∧ row.suggested.get "dismissed" = .bool true ∧
    ∀ request e, row.entry = .ok e → (s.take (.merge id request)).1.result =
      .error (.notFound (.activeSuggestion (some id)))
  refused : ∀ step, step.resolution? = some (.merge, id) →
    (s.take step).1.fails = true ∧ (s.take step).2.book = s.book

/-- no row is stored under an id, and whatever is asked of it is not found -/
structure Session.Forgets (s : Session) (id : String) : Prop where
  gone : s.book.row? id = none
  refused : ∀ step, step.entry? = some id → ∃ what, (s.take step).1.result = .error (.notFound what)

namespace Session

variable {s t : Session} {step done : Step} {id : String} {row : Row} {e : Entry}
variable {how : Resolution}

theorem result_take_merge (up : s.storeUp = true) (found : s.book.row? id = some row)
    (read : row.entry = .ok e) (request : Option String) :
    (s.take (.merge id request)).1.result =
      Reply.merged <$> s.book.merge e := by
  have merged := Ledger.result_merge (s := { s with log := [] }) up found request
  rw [read] at merged
  rw [result_of_map s (.merge id request) rfl, merged]
  rfl

theorem numbered_of_isSome (h : s.Reachable) (there : (s.book.row? id).isSome = true) :
    ∃ n, id = numbered n := by
  obtain ⟨row, found⟩ := Option.isSome_iff_exists.1 there
  obtain ⟨n, -, named⟩ := h.numbered.number row (Book.mem_of_row? found)
  exact ⟨n, (Book.id_of_row? found).symm.trans named⟩

theorem canLookUp_of_posted (h : s.Reachable) {raw : Fields}
    (given : e.suggestion = some (.ofFields raw))
    (posted : (s.book.row? (Suggestion.ofFields raw).entryId).isSome = true) :
    e.canLookUp = true := by
  obtain ⟨n, named⟩ := numbered_of_isSome h posted
  unfold Entry.canLookUp
  rw [given]
  dsimp only
  rw [Suggestion.hasWholeId_of_numbered named, Bool.or_true]

/-- **A row that can be read is merged exactly if what is stored of its suggestion can be.** -/
theorem merges_iff (h : s.Reachable) (found : s.book.row? id = some row)
    (read : row.entry = .ok e) (request : Option String) :
    (∃ m, (s.take (.merge id request)).1.merged? = some m) ↔ s.book.Mergeable row := by
  have result := result_take_merge (h.storeUp found) found read request
  have merged (m : Merged) : (s.take (.merge id request)).1.merged? = some m ↔
      e.canLookUp = true ∧ e.merge (fun posted => (s.book.row? posted).isSome) = .ok m := by
    rw [Outcome.merged?_eq_some, result, Except.map_eq_ok, ← Book.merge_eq_ok]
    exact ⟨fun ⟨_, h, e⟩ => by cases e; exact h, fun h => ⟨m, h, rfl⟩⟩
  simp only [merged]
  rw [exists_and_left, Entry.merge_isOk]
  have stored := Row.suggestion_of_entry read
  have marked : (Suggestion.ofFields row.suggested).dismissed = false ↔
      row.suggested.get "dismissed" ≠ .bool true := by
    show Suggestion.isDismissed _ = false ↔ _
    cases row.suggested.get "dismissed" with
    | bool b => cases b <;> simp [Suggestion.isDismissed]
    | _ => simp [Suggestion.isDismissed]
  constructor
  · rintro ⟨-, g, given, undismissed, named, posted⟩
    rw [stored] at given
    split at given
    · cases given
    · next some =>
      cases given
      exact ⟨fun none => some (by rw [none]; rfl), marked.1 undismissed, named, posted⟩
  · rintro ⟨some, undismissed, named, posted⟩
    rw [if_neg fun none => some (List.isEmpty_iff.1 none)] at stored
    exact ⟨canLookUp_of_posted h stored posted, .ofFields row.suggested, stored,
      marked.2 undismissed, named, posted⟩

/-- **Whatever asks to merge a dismissed suggestion is refused and changes nothing.** -/
theorem holdsDismissed_of_dismissed (h : s.Reachable) (found : s.book.row? id = some row)
    (dismissed : row.Dismissed) : s.HoldsDismissed id := by
  constructor
  · refine ⟨row, found, dismissed.get_suggested, fun request e read => ?_⟩
    rw [result_take_merge (h.storeUp found) found read]
    unfold Book.merge Entry.merge
    rw [if_pos (dismissed.canLookUp read), dismissed.activeTarget read, Book.id_of_row? found]
    rfl
  · intro step asked
    have refused : ¬ s.Resolves step .merge id := by
      intro resolves
      obtain ⟨other, m, -, found', merges, -⟩ := resolves.merged
      rw [found] at found'
      cases found'
      exact dismissed.not_merges merges
    refine ⟨?_, ?_⟩
    · cases fails : (s.take step).1.fails with
      | true => rfl
      | false => exact absurd ⟨asked, fails⟩ refused
    · obtain ⟨-, _, _, -, -, ⟨same, -⟩ | ⟨done, does, turn⟩⟩ := take_turn h.numbered step
      · exact same
      · have asked := does.resolution.trans asked
        generalize (s.take step).2.book = after at turn
        cases turn with
        | same => rfl
        | revised revision =>
          cases done with
          | attach => cases asked
          | dismiss => cases asked
          | clear => cases asked
          | _ => cases revision
        | merged found' merges =>
          cases asked
          rw [found] at found'
          cases found'
          exact absurd merges dismissed.not_merges
        | _ => cases asked

theorem Spent.run (h : s.Reachable) (spent : s.Spent id) (steps : List Step) :
    (s.run steps).2.Spent id := by
  induction steps generalizing s with
  | nil => exact spent
  | cons step steps ih => exact ih (h.take step) (spent.take h step)

theorem spent_of_merged (h : s.Reachable) (merged : s.Resolves step .merge id) :
    (s.take step).2.Spent id := by
  obtain ⟨row, m, -, found, -, dropped⟩ := merged.merged
  refine .of_gone h found ?_
  rw [dropped]
  exact Book.row?_dropRow_self _ _

theorem storeUp_run (h : s.Reachable) (steps : List Step) :
    (s.run steps).2.storeUp = s.storeUp := by
  induction steps generalizing s with
  | nil => rfl
  | cons step steps ih => exact (ih (h.take step)).trans (storeUp_take h step)

theorem not_touches_of_resolution (asked : step.resolution? = some (how, id)) :
    ¬ step.Touches id := by
  intro touched
  cases step with
  | editRow => cases asked
  | deleteRow => cases asked
  | _ => exact touched

theorem dismissed_of_resolves (h : s.ReachableBy fun _ step => ¬ step.Touches id)
    (resolves : s.Resolves step .dismiss id) :
    ∃ row, (s.take step).2.book.row? id = some row ∧ row.Dismissed := by
  obtain ⟨old, changed, settled, found, revised, put⟩ := resolves.dismissed
  have here : settled.id = id :=
    revised.settles.id.trans (show old.id = id from Book.id_of_row? found)
  refine ⟨settled, ?_, revised.dismissed (Row.tidy_of_reachableBy h found)⟩
  rw [put, ← here]
  exact Book.row?_putRow_self (here ▸ found)

theorem dismissed_leads (h : s.ReachableBy fun _ step => ¬ step.Touches id)
    (dismissed : ∃ row, s.book.row? id = some row ∧ row.Dismissed)
    (way : s.Leads (fun u next => ¬ next.Touches id ∧ ¬ u.Replaces next id) t) :
    t.ReachableBy (fun _ step => ¬ step.Touches id) ∧
      ∃ row, t.book.row? id = some row ∧ row.Dismissed := by
  induction way with
  | refl => exact ⟨h, dismissed⟩
  | take _ next may ih =>
    obtain ⟨reachable, row, found, dismissed⟩ := ih
    exact ⟨reachable.take next may.1, dismissed_take reachable found dismissed may.1 may.2⟩

/-- **A suggestion is merged as it is stored, stays dismissed, and is gone with its entry.**  For an
entry that is not set or dropped by hand: a row that can be read is merged exactly if what is stored
of its suggestion is not dismissed and names a row; once dismissed, the suggestion is stored so and
no merge gets through until it is replaced; and once merged, the entry is never there again. -/
theorem suggestion_resolved (id : String) (h : s.ReachableBy fun _ step => ¬ step.Touches id) :
    (∀ row e request, s.book.row? id = some row → row.entry = .ok e →
      ((∃ m, (s.take (.merge id request)).1.merged? = some m) ↔ s.book.Mergeable row)) ∧
    (∀ step, s.Resolves step .dismiss id →
      ∀ t, (s.take step).2.Leads (fun u next => ¬ next.Touches id ∧ ¬ u.Replaces next id) t →
        t.HoldsDismissed id) ∧
    (∀ step, s.Resolves step .merge id →
      ∀ steps, ((s.take step).2.run steps).2.Forgets id) := by
  refine ⟨fun row e request found read => merges_iff h.reachable found read request, ?_, ?_⟩
  · intro step resolves t way
    have untouched := not_touches_of_resolution resolves.asked
    obtain ⟨reachable, row, found, dismissed⟩ :=
      dismissed_leads (h.take step untouched) (dismissed_of_resolves h resolves) way
    exact holdsDismissed_of_dismissed reachable.reachable found dismissed
  · intro step resolves steps
    have spent := (spent_of_merged h.reachable resolves).run (h.reachable.take step) steps
    obtain ⟨row, m, up, -⟩ := resolves.merged
    refine ⟨spent.gone, fun next asked => ?_⟩
    rw [result_take]
    refine Step.result_of_absent ?_ spent.gone asked
    show ((s.take step).2.run steps).2.storeUp = true
    rw [storeUp_run (h.reachable.take step), storeUp_take h.reachable, up]

/-! ## a purchase suggested for another one -/

def dismissFirst : Step := .dismiss "id-2" none

/-- the first purchase is deferred, dismissed once more and then merged -/
def afterDismissal : List Step :=
  [.update "id-2" ⟨none, .value .null, some true, .null, true⟩, dismissFirst, .merge "id-2" none]

theorem suggestion_resolved_dismissed :
    let s := suggestedAs "id-3"
    let merge := Step.merge "id-2" none
    s.ReachableBy (fun _ step => ¬ step.Touches "id-2") ∧
      s.Resolves dismissFirst .dismiss "id-2" ∧
      ((s.take dismissFirst).2.run afterDismissal).2.HoldsDismissed "id-2" ∧
      s.Resolves merge .merge "id-2" ∧ (s.take merge).2.Forgets "id-2" := by
  intro s merge
  have reachable : s.ReachableBy fun _ step => ¬ step.Touches "id-2" := by
    have first : firstPurchase.ReachableBy fun _ step => ¬ step.Touches "id-2" := by
      refine (ReachableBy.fresh _ _ _ _).leads (leads_run _ ?_)
      simp [Step.Touches]
    refine first.leads (leads_run _ ?_)
    simp [Step.Touches]
  have dismisses : s.Resolves dismissFirst .dismiss "id-2" := ⟨rfl, by decide +kernel⟩
  have merges : s.Resolves merge .merge "id-2" := ⟨rfl, by decide +kernel⟩
  have resolved := suggestion_resolved "id-2" reachable
  refine ⟨reachable, dismisses, resolved.2.1 _ dismisses _ (leads_run _ ?_), merges,
    resolved.2.2 _ merges []⟩
  intro next hn u
  have plain : ¬ next.Touches "id-2" ∧ next.resolution? ≠ some (.clear, "id-2") ∧
      ∀ g, next ≠ .attach "id-2" g := by
    simp only [afterDismissal, dismissFirst, List.mem_cons, List.not_mem_nil, or_false] at hn
    rcases hn with rfl | rfl | rfl <;> simp [Step.Touches, Step.resolution?]
  refine ⟨plain.1, fun replaces => ?_⟩
  rcases replaces.asked with asked | ⟨g, attach⟩
  · exact plain.2.1 asked
  · exact plain.2.2 g attach

end Session

end Billfold
