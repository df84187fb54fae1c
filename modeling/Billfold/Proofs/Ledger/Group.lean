import Billfold.Proofs.Entry.Tag
import Billfold.Proofs.Json.Sort
import Billfold.Proofs.Ledger.Upkeep

/-!
# The rows of a group

A group is told from the metadata of the rows of an account, put in the order of their periods.

* `Row.isIn`                whether a row is told as one of a group
* `Book.perm_groupRows`     the rows of a group are those of the account that are in it
* `Carries.isIn`, `names_of_isIn`   the rows with a tag of the group, and what every row of it names
* `Book.groupRows_ordered`  they are told by their periods, where these are whole numbers
* `Ledger.group_ok`, `Ledger.result_group`   what is told of a group
-/

namespace Billfold

/-! ## rows of a group -/

namespace Row

def isIn (group : String) (r : Row) : Bool :=
  match r.fields with
  | .ok metadata => inGroup group metadata
  | .error _ => false

variable {r : Row} {group : String} {tag : Tag}

theorem Carries.isIn (h : r.Carries tag) (named : tag.group = some group) :
    r.isIn group = true := by
  obtain ⟨fields, map, said⟩ := h
  have found : fields.get? Tag.groupKey = some (.ofWords? tag.group) := said _ List.mem_cons_self
  have given : (Json.object fields).isTruthy = true := by
    cases fields with
    | nil => cases found
    | cons f fields => rfl
  have told : r.fields = .ok fields := by
    unfold Row.fields
    rw [map, if_pos given]
  unfold Row.isIn inGroup Fields.get
  rw [told]
  simp only [found, named, Json.ofWords?, Option.getD_some, decide_true]

theorem names_of_isIn (h : r.isIn group = true) : r.Names group := by
  unfold isIn at h
  split at h
  · next metadata told =>
    unfold Row.fields at told
    have map : Metadata.ofValue r.extra = .ok metadata := by
      unfold Metadata.ofValue
      split at told
      · next given =>
        split at told
        · next fields object =>
          cases told
          rw [if_pos given, object]
        · cases told
      · next none =>
        cases told
        rw [if_neg none]
    unfold inGroup Fields.get at h
    cases found : metadata.get? Tag.groupKey with
    | none =>
      rw [found] at h
      cases h
    | some v =>
      rw [found, Option.getD_some] at h
      split at h
      · next s => exact ⟨metadata, .text s, map, found, congrArg some (of_decide_eq_true h)⟩
      · cases h
  · cases h

/-- the fields of the metadata, where they are an object -/
def metadata (r : Row) : Fields := r.extra.fields?.getD []

def period (r : Row) : Int :=
  match r.metadata.get? Tag.indexKey with
  | some (.int n) => n
  | _ => 0

theorem fields_of_object (h : ∃ fields : Fields, r.extra = .object fields) :
    r.fields = .ok r.metadata := by
  obtain ⟨fields, map⟩ := h
  unfold Row.fields metadata
  rw [map]
  cases fields <;> rfl

theorem Carries.get?_index (h : r.Carries tag) :
    r.metadata.get? Tag.indexKey = some (.int tag.index) := by
  obtain ⟨fields, map, said⟩ := h
  unfold metadata
  rw [map]
  exact said (Tag.indexKey, .int tag.index) (List.mem_cons_of_mem _ List.mem_cons_self)

theorem Carries.period_eq (h : r.Carries tag) : r.period = tag.index := by
  unfold period
  rw [h.get?_index]

theorem Carries.periodKey_eq (h : r.Carries tag) : periodKey r.metadata = .int r.period := by
  unfold periodKey
  rw [h.get?_index, h.period_eq]
  rfl

end Row

theorem filter_of_mapM_fields {group : String} {rows : List Row} {pairs : List (Fields × Row)}
    (h : (rows.mapM fun r => do return (← r.fields, r)) = .ok pairs) :
    (pairs.filter fun (metadata, _) => inGroup group metadata).map Prod.snd =
      rows.filter (Row.isIn group) := by
  induction rows generalizing pairs with
  | nil =>
    cases h
    rfl
  | cons r rows ih =>
    obtain ⟨pair, rest, told, others, rfl⟩ := Except.mapM_cons_eq_ok.1 h
    obtain ⟨metadata, fields, e⟩ := Except.bind_eq_ok.1 told
    cases e
    have same : r.isIn group = inGroup group metadata := by
      unfold Row.isIn
      rw [fields]
    rw [List.filter_cons, List.filter_cons, same]
    show List.map Prod.snd (if inGroup group metadata = true then _ else _) = _
    split
    · rw [List.map_cons, ih others]
    · exact ih others

/-- **The rows of a group are those of the account that are in it**, in some order. -/
theorem Book.perm_groupRows {b : Book} {account group : String} {rows : List Row}
    (h : b.groupRows account group = .ok rows) :
    rows.Perm ((b.rowsOf account).filter (Row.isIn group)) := by
  unfold groupRows at h
  obtain ⟨pairs, told, h⟩ := Except.bind_eq_ok.1 h
  obtain ⟨sorted, ordered, h⟩ := Except.bind_eq_ok.1 h
  cases h
  rw [← filter_of_mapM_fields told]
  exact (Json.perm_sortBy ordered).map Prod.snd

theorem Book.mem_groupRows {b : Book} {account group : String} {rows : List Row}
    (h : b.groupRows account group = .ok rows) (r : Row) :
    r ∈ rows ↔ (r ∈ b.rows ∧ r.account = account) ∧ r.isIn group := by
  rw [(perm_groupRows h).mem_iff, List.mem_filter]
  unfold rowsOf
  rw [List.mem_filter, decide_eq_true_iff]

/-- **The rows of a group are told by their periods**, where all metadata are objects and those of
the group say whole numbers. -/
theorem Book.groupRows_ordered {b : Book} {account group : String}
    (objects : ∀ r ∈ b.rowsOf account, ∃ fields : Fields, r.extra = .object fields)
    (whole : ∀ r ∈ b.rowsOf account, r.isIn group = true → periodKey r.metadata = .int r.period) :
    ∃ rows, b.groupRows account group = .ok rows ∧
      rows.Pairwise fun x y => x.period ≤ y.period := by
  have told : ((b.rowsOf account).mapM fun r => do return (← r.fields, r)) =
      .ok ((b.rowsOf account).map fun r => (r.metadata, r)) := by
    refine Except.mapM_eq_map fun r hr => ?_
    rw [Row.fields_of_object (objects r hr)]
    rfl
  let matching := ((b.rowsOf account).map fun r => (r.metadata, r)).filter
    fun (metadata, _) => inGroup group metadata
  have keys : ∀ x ∈ matching, periodKey x.1 = .int x.2.period := by
    intro x hx
    obtain ⟨there, named⟩ := List.mem_filter.1 hx
    obtain ⟨r, hr, rfl⟩ := List.mem_map.1 there
    refine whole r hr ?_
    unfold Row.isIn
    rw [Row.fields_of_object (objects r hr)]
    exact named
  obtain ⟨sorted, ordered, stands⟩ := Json.sortBy_int keys
    (List.pairwise_of_forall (R := fun _ _ => True) fun _ _ => trivial)
  refine ⟨sorted.map Prod.snd, ?_, List.pairwise_map.2 (stands.imp Json.StandsBefore.le)⟩
  exact Except.bind_eq_ok.2 ⟨_, told, Except.bind_eq_ok.2 ⟨sorted, ordered, rfl⟩⟩

/-! ## what is told -/

namespace Ledger

open Act

variable {s t : Session} {account name : String} {infos : List Info}

/-- **What is told of a group** are its rows, of which there are some, each with its payment
date. -/
theorem group_ok (h : (Ledger.group account name).exec s = (.ok infos, t)) :
    ∃ rows, s.book.groupRows account name = .ok rows ∧ rows ≠ [] ∧
      rows.mapM s.book.info = .ok infos := by
  unfold Ledger.group at h
  obtain ⟨b, _, asked, run⟩ := exec_bind_ok h
  obtain ⟨-, rfl, rfl⟩ := exec_book_ok asked
  obtain ⟨found, _, looked, run⟩ := exec_bind_ok run
  obtain ⟨there, rfl⟩ := exec_require_ok looked
  obtain ⟨b, _, asked, run⟩ := exec_bind_ok run
  obtain ⟨-, rfl, rfl⟩ := exec_book_ok asked
  obtain ⟨rows, _, ran, run⟩ := exec_bind_ok run
  obtain ⟨listed, rfl⟩ := exec_ofFault_ok ran
  rw [Book.id_of_account? there] at listed
  split at run
  · cases run
  · next some =>
    obtain ⟨told, -⟩ := exec_ofResult_ok run
    exact ⟨rows, listed, some, told⟩

theorem result_group {account name : String} {a : Account} {rows : List Row}
    (up : s.storeUp = true) (there : s.book.account? account = some a)
    (listed : s.book.groupRows account name = .ok rows) :
    ((Ledger.group account name).exec s).1 =
      if rows.isEmpty then .error (.notFound (.plan name)) else rows.mapM s.book.info := by
  unfold Ledger.group
  simp only [exec_bind, exec_book, exec_require, exec_ofFault, up, if_pos, there,
    Book.id_of_account? there, listed]
  cases rows with
  | nil => rfl
  | cons r rows => rfl

end Ledger

theorem Book.info_of_entry {b : Book} {r : Row} {a : Account} {policy : Option Policy} {e : Entry}
    {due : Option Date} (there : b.account? r.account = some a) (told : a.policy = .ok policy)
    (read : r.entry = .ok e) (shown : shownDue policy e.charge = .ok due) :
    b.info r = .ok ⟨e, due, showsBadge policy e.charge⟩ := by
  have asked : b.policyOf r = .ok policy := by
    unfold policyOf
    rw [there]
    exact told
  refine Except.bind_eq_ok.2 ⟨policy, asked, Except.bind_eq_ok.2 ⟨e, ?_, ?_⟩⟩
  · rw [read]
    rfl
  · rw [shown]
    rfl

theorem Book.entry_of_info {b : Book} {r : Row} {info : Info} (h : b.info r = .ok info) :
    r.entry = .ok info.entry := by
  unfold Book.info at h
  obtain ⟨policy, -, h⟩ := Except.bind_eq_ok.1 h
  obtain ⟨e, read, h⟩ := Except.bind_eq_ok.1 h
  obtain ⟨due, -, h⟩ := Except.bind_eq_ok.1 h
  cases h
  exact Except.liftFault_eq_ok.1 read

theorem Book.amount_of_info {b : Book} {r : Row} {info : Info} (h : b.info r = .ok info) :
    r.amount.toCents = .ok info.entry.amount := by
  obtain ⟨_, reads⟩ := Row.reads_of_entry (entry_of_info h)
  exact reads.amount

end Billfold
