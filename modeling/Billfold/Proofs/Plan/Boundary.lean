import Billfold.Proofs.Entry.Readers
import Billfold.Proofs.Plan.Complete

/-!
# What is read of any value

Amounts, modes, counts and metadata come in as whatever JSON text can say.  Each reader gives a
value, a default or a refusal; only an infinite number, where a whole one is asked for, is a fault.

* `Except.OnlyRefuses`       a result that is a value or a refusal, and no fault
* `readers_onlyRefuse_iff`   the readers of one value and of one metadata map
-/

namespace Billfold

def Except.OnlyRefuses {α : Type} (r : Except Error α) : Prop :=
  ∀ e, r = .error e → ∃ why, e = .refused why

section
variable {α β : Type}

theorem onlyRefuses_ok (a : α) : Except.OnlyRefuses (.ok a) := by
  intro e h
  cases h

theorem onlyRefuses_refused (why : Refusal) :
    Except.OnlyRefuses (α := α) (.error (.refused why)) := by
  intro e h
  cases h
  exact ⟨why, rfl⟩

theorem Except.OnlyRefuses.bind {r : Except Error α} {f : α → Except Error β}
    (h : Except.OnlyRefuses r) (next : ∀ a, Except.OnlyRefuses (f a)) :
    Except.OnlyRefuses (r >>= f) := by
  cases r with
  | error e =>
    obtain ⟨why, rfl⟩ := h e rfl
    exact onlyRefuses_refused why
  | ok a => exact next a

end

/-! ## amounts and modes -/

theorem Amount.onlyRefuses_readValue (v : Json) : Except.OnlyRefuses (readValue v) := by
  unfold readValue
  split
  · exact onlyRefuses_refused _
  · exact onlyRefuses_refused _
  · split
    · unfold finite
      split
      · exact onlyRefuses_ok _
      · exact onlyRefuses_refused _
    · exact onlyRefuses_refused _

theorem Mode.onlyRefuses_read (default : Mode) (v : Json) :
    Except.OnlyRefuses (read default.text v) := by
  unfold read
  rw [ofText?_text]
  split
  · exact onlyRefuses_ok _
  · split
    · exact onlyRefuses_ok _
    · exact onlyRefuses_refused _

/-! ## whole numbers -/

theorem onlyRefuses_wholeCount {v : Json} (finite : ¬v.IsInfinite) :
    Except.OnlyRefuses (wholeCount v) := by
  unfold wholeCount
  split
  · exact onlyRefuses_ok _
  · split
    · exact onlyRefuses_ok _
    · exact absurd (Json.whole_eq_outOfRange.1 ‹_›) finite
    · exact onlyRefuses_refused _

theorem onlyRefuses_clampCount (limit count : Int) :
    Except.OnlyRefuses (clampCount limit count) := by
  unfold clampCount
  split
  · exact onlyRefuses_refused _
  · exact onlyRefuses_ok _

/-- **A count is read or refused, unless it is infinite.** -/
theorem onlyRefuses_readCount {limit : Int} {v : Json} :
    Except.OnlyRefuses (readCount limit v) ↔ ¬v.IsInfinite := by
  constructor
  · rintro only ⟨negative, rfl⟩
    obtain ⟨why, same⟩ := only (.fault .outOfRange) rfl
    cases same
  · intro finite
    exact (onlyRefuses_wholeCount finite).bind fun k => onlyRefuses_clampCount limit k

/-- **The readers give a value, a default or a refusal, but for infinite numbers.** -/
theorem readers_onlyRefuse_iff (v : Json) (metadata : Fields) (limit : Int) (mode : Mode) :
    (Except.OnlyRefuses (Amount.readValue v) ∧
      ∀ x, Amount.readValue v = .ok x → x.isFinite = true) ∧
    Except.OnlyRefuses (Mode.read mode.text v) ∧
    (Except.OnlyRefuses (readCount limit v) ↔ ¬v.IsInfinite) ∧
    (∀ n, readCount limit v = .ok n → 1 ≤ n ∧ (n : Int) ≤ limit) ∧
    ((∃ tag?, Tag.read metadata = .ok tag?) ↔ ¬Tag.Overflows metadata) ∧
    (∀ tag, Tag.read metadata = .ok (some tag) ↔
      Tag.ReadFrom metadata tag ∧ Tag.modeOf (metadata.get Tag.modeKey) = some tag.mode) ∧
    (∀ s, Suggestion.read metadata = some s ↔ ∃ raw : Fields, raw ≠ [] ∧
      metadata.get? Suggestion.key = some (.object raw) ∧ s = .ofFields raw) ∧
    (∀ raw, Suggestion.ReadOf raw (.ofFields raw)) ∧
    (isPending metadata = true ↔ ∃ provider ∈ pendingProviders, ∃ fields : Fields,
      metadata.get provider = .object fields ∧ meansYes (Fields.get "pending" fields) = true) := by
  refine ⟨⟨Amount.onlyRefuses_readValue v, fun x => Amount.isFinite_of_readValue⟩,
    Mode.onlyRefuses_read mode v, onlyRefuses_readCount, ?_, Tag.read_isOk,
    fun tag => Tag.read_eq_some, fun s => Suggestion.read_eq_some, Suggestion.readOf_ofFields,
    isPending_iff⟩
  intro n h
  obtain ⟨k, -, within, same⟩ := readCount_eq_ok.1 h
  exact ⟨by omega, by omega⟩

def endless : Fields :=
  [("installment_group", .text "g"), ("installment_index", .float (.infinite false)),
    ("installments_total", .int 2)]

/-- an infinite count is not refused but a fault, and so is an infinite period in metadata -/
theorem infinite_count_is_fault :
    ¬Except.OnlyRefuses (readCount 12 (.float (.infinite false))) ∧
      ¬∃ tag?, Tag.read endless = .ok tag? := by
  constructor
  · intro only
    obtain ⟨why, same⟩ := only (.fault .outOfRange) rfl
    cases same
  · rintro ⟨tag?, h⟩
    cases h

end Billfold
