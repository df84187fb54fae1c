import Billfold.Proofs.Decimal.Sign
import Billfold.Proofs.Ledger.Create
import Billfold.Proofs.Ledger.Update
import Billfold.Proofs.Plan.Divide

/-!
# The side of zero that an amount is on

Money in is kept below zero and money out above.  Both what is created and what is changed is put on
the side that its direction says, up to being zero.

* `Nature.Admits`            the amounts of a direction
* `NewEntry.Leans`           the direction that a request gives to its rows
* `Nature.admits_of_sign`    an amount with the sign of a direction
* `admits_of_divide`, `Plan.admits_of_lines`   the parts of an amount, and the lines of a plan
* `Drafted.admits`           the rows that a request leads to
* `Row.admits_of_named`, `Row.admits_of_unnamed`   a changed amount, with and without a direction
* `Row.Updated.admits`       and what the book keeps of it
-/

namespace Billfold

/-- the amounts that a movement of a direction can have: money in is never above zero, and money out
never below -/
def Nature.Admits : Nature → Decimal → Prop
  | .inflow, x => x.sign ≤ 0
  | .outflow, x => 0 ≤ x.sign

def Nature.opposite : Nature → Nature
  | inflow => outflow
  | outflow => inflow

variable {direction : Nature} {x y : Decimal}

theorem Nature.admits_of_zero (zero : x.sign = 0) : direction.Admits x := by
  cases direction with
  | inflow => exact Int.le_of_eq zero
  | outflow => exact Int.le_of_eq zero.symm

theorem Decimal.Follows.admits (h : y.Follows x) (admits : direction.Admits x) :
    direction.Admits y := by
  rcases h with zero | same
  · exact Nature.admits_of_zero zero
  · cases direction with
    | inflow => exact Int.le_trans (Int.le_of_eq same) admits
    | outflow => exact Int.le_trans admits (Int.le_of_eq same.symm)

/-! ## an amount with a sign -/

theorem Nature.admits_of_sign (h : direction.sign x = .ok y) (above : 0 ≤ x.sign) :
    direction.Admits y := by
  cases direction with
  | outflow =>
    cases h
    exact above
  | inflow =>
    show y.sign ≤ 0
    rcases Decimal.sign_of_neg h with zero | opposite <;> omega

theorem Nature.admits_of_sign_below (h : direction.sign x = .ok y) (below : x.sign < 0) :
    direction.opposite.Admits y := by
  cases direction with
  | outflow =>
    cases h
    exact Int.le_of_lt below
  | inflow =>
    show 0 ≤ y.sign
    rcases Decimal.sign_of_neg h with zero | opposite <;> omega

theorem Amount.sign_of_signed {a : Amount} {nature : Json} (h : a.signed nature = .ok y) :
    ∃ named x, Nature.of? nature = some named ∧ a.read = .ok x ∧ named.sign x = .ok y := by
  unfold Amount.signed at h
  split at h
  · cases h
  · next named given =>
    obtain ⟨x, read, h⟩ := Except.bind_eq_ok.1 h
    exact ⟨named, x, given, read, Except.liftFault_eq_ok.1 h⟩

/-- the direction that a request gives to its rows: the one that it names, or the other one if its
amount is below zero -/
def NewEntry.Leans (e : NewEntry) (direction : Nature) : Prop :=
  ∃ named x, Nature.of? e.nature = some named ∧ e.amount.read = .ok x ∧
    direction = if x.sign < 0 then named.opposite else named

theorem NewEntry.Leans.admits {e : NewEntry} (leans : e.Leans direction)
    (h : e.amount.signed e.nature = .ok y) : direction.Admits y := by
  obtain ⟨named, x, given, read, rfl⟩ := leans
  obtain ⟨_, _, given', read', signed⟩ := Amount.sign_of_signed h
  rw [given] at given'
  cases given'
  rw [read] at read'
  cases read'
  split
  · next below => exact Nature.admits_of_sign_below signed below
  · next above => exact Nature.admits_of_sign signed (Int.not_lt.1 above)

/-! ## the parts of an amount -/

theorem sign_of_centAmount {negative : Bool} {cents : Nat} (h : centAmount negative cents = .ok y) :
    ∃ n f, y = .finite negative n f ∧ (cents = 0 → n = 0) := by
  obtain ⟨z, plain, signed⟩ := Except.bind_eq_ok.1 h
  obtain ⟨n, f, rfl, zero⟩ := Decimal.sign_of_mul plain
  obtain ⟨k, g, rfl, zero'⟩ := Decimal.sign_of_mul signed
  refine ⟨k, g, ?_, fun none => zero' (zero none)⟩
  rw [bne_self_eq_false, Bool.false_bne]

theorem wholeCents_of_zero {negative : Bool} {e cents : Int}
    (h : wholeCents (.finite negative 0 e) = .ok cents) : cents = 0 := by
  obtain ⟨z, magnitude, h⟩ := Except.bind_eq_ok.1 h
  obtain ⟨n, f, rfl, zero⟩ := Decimal.fit_ok magnitude
  obtain ⟨w, scaled, h⟩ := Except.bind_eq_ok.1 h
  obtain ⟨k, g, rfl, zero'⟩ := Decimal.sign_of_mul scaled
  cases zero rfl
  cases zero' rfl
  have none : Decimal.wholePart 0 g = 0 := by
    unfold Decimal.wholePart
    split
    · exact Nat.zero_mul _
    · split
      · rfl
      · exact Nat.zero_div _
  cases h
  rw [none]
  split <;> rfl

/-- **The parts of an amount are on its side.** -/
theorem admits_of_divide {count : Nat} {parts : List Decimal} (h : divide x count = .ok parts)
    (admits : direction.Admits x) (part : y ∈ parts) : direction.Admits y := by
  unfold divide at h
  obtain ⟨negative, side, h⟩ := Except.bind_eq_ok.1 h
  obtain ⟨cents, whole, h⟩ := Except.bind_eq_ok.1 h
  split at h
  · cases h
  obtain ⟨i, place⟩ := List.getElem?_of_mem part
  obtain ⟨k, hk, made⟩ := Except.getElem?_of_mapM h place
  obtain ⟨n, f, rfl, zero⟩ := sign_of_centAmount made
  by_cases none : n = 0
  · subst none
    exact Nature.admits_of_zero rfl
  have sign : (Decimal.finite negative n f).sign = if negative then -1 else 1 :=
    Decimal.sign_of_pos none
  have below := Decimal.isNegative_eq side
  cases direction with
  | outflow =>
    have above : ¬ x.sign < 0 := Int.not_lt.2 admits
    rw [decide_eq_false above] at below
    subst below
    show 0 ≤ (Decimal.finite false n f).sign
    rw [sign]
    decide
  | inflow =>
    have some : x.sign < 0 := by
      rcases Int.lt_or_eq_of_le (show x.sign ≤ 0 from admits) with below | nothing
      · exact below
      -- an amount of no cents has no parts but zeros
      refine absurd (zero ?_) none
      obtain ⟨_, _, rfl⟩ := Decimal.eq_of_sign_zero side nothing
      cases wholeCents_of_zero whole
      obtain ⟨-, le, more⟩ := mem_centParts (List.mem_of_getElem? hk)
      rw [Int.toNat_zero, Nat.zero_div] at le more
      rw [Nat.zero_mod] at more
      omega
    rw [decide_eq_true some] at below
    subst below
    show (Decimal.finite true n f).sign ≤ 0
    rw [sign]
    decide

theorem Plan.admits_of_lines {rules : PlanRules} {count mode : Json} {start : Date}
    {name group : String} {p : Plan} {line : Line}
    (h : Plan.of rules (.decimal x) count mode start name group = .ok p)
    (admits : direction.Admits x) (hl : line ∈ p.lines) : direction.Admits line.amount := by
  obtain ⟨-, -, _, n, parts, read, -, cut, listed⟩ := Plan.of_ok h
  cases Amount.read_decimal read
  have part : line.amount ∈ parts := by
    rw [← amounts_of_linesOf listed]
    exact List.mem_map_of_mem hl
  unfold Plan.amounts at cut
  split at cut
  · cases cut
    rw [List.eq_of_mem_replicate part]
    exact admits
  · exact admits_of_divide cut admits part

/-! ## new rows -/

namespace Ledger

variable {s : Session} {e : NewEntry} {plan : Option Plan} {rows : List Row} {r : Row}

theorem Planned.admits {amount : Decimal} {n : Nat} {a : Account} {c : Entry}
    (h : Planned s e amount n plan) (admits : direction.Admits amount)
    (hc : c ∈ candidates (e.base a amount) plan) : direction.Admits c.amount := by
  cases h with
  | single one =>
    rw [List.mem_singleton.1 hc]
    exact admits
  | several more made =>
    obtain ⟨line, hl, rfl⟩ := List.mem_map.1 hc
    exact Plan.admits_of_lines made admits hl

/-- **The rows that a request leads to have its direction.** -/
theorem Drafted.admits (h : Drafted s e plan rows) (leans : e.Leans direction) (hr : r ∈ rows) :
    direction.Admits r.amount := by
  obtain ⟨account, policy, amount, n, -, -, signed, -, planned, written⟩ := h.written
  obtain ⟨c, hc, settled⟩ : ∃ c ∈ candidates (e.base account amount) plan,
      settle? c.amount = some r.amount := by
    have kept : some r.amount ∈ rows.map fun r => some r.amount := List.mem_map_of_mem hr
    rw [written.amounts] at kept
    exact List.mem_map.1 kept
  exact (follows_of_settle? settled).admits (planned.admits (leans.admits signed) hc)

end Ledger

/-! ## changed rows -/

namespace Row

variable {r old made settled : Row} {c : Changes}

theorem eq_of_direction {v : Json} (h : r.direction = .ok v) :
    v = .text (if r.amount.sign < 0 then "inflow" else "outflow") := by
  obtain ⟨negative, side, h⟩ := Except.bind_eq_ok.1 h
  cases h
  rw [Decimal.isNegative_eq side]
  simp only [decide_eq_true_eq]

/-- an amount that is changed is the magnitude of the one that is given, or else of the row's own,
with the sign of the direction that is named, or else of the row's own -/
theorem editAmount_cases (h : r.editAmount c = .ok y) :
    (c.amount.isNull = true ∧ c.nature.isNull = true ∧ y = r.amount) ∨
      ∃ given magnitude named, given.abs = .ok magnitude ∧ named.sign magnitude = .ok y ∧
        (c.amount.isNull = true → given = r.amount) ∧
        Nature.of? (if c.nature.isTruthy then c.nature
          else .text (if r.amount.sign < 0 then "inflow" else "outflow")) = some named := by
  unfold editAmount at h
  split at h
  · next both =>
    cases h
    obtain ⟨none, none'⟩ := Bool.and_eq_true_iff.1 both
    exact .inl ⟨none, none', rfl⟩
  · right
    dsimp only at h
    obtain ⟨given, read, h⟩ := Except.bind_eq_ok.1 h
    obtain ⟨magnitude, taken, h⟩ := Except.bind_eq_ok.1 h
    have own (none : c.amount.isNull = true) : given = r.amount := by
      rw [if_pos none] at read
      exact Amount.read_decimal read
    split at h
    · next truthy =>
      obtain ⟨named, _, chosen, read', signed⟩ := Amount.sign_of_signed h
      cases Amount.read_decimal read'
      refine ⟨given, magnitude, named, Except.liftFault_eq_ok.1 taken, signed, own, ?_⟩
      rw [if_pos truthy]
      exact chosen
    · next falsy =>
      obtain ⟨side, told, h⟩ := Except.bind_eq_ok.1 h
      obtain ⟨named, _, chosen, read', signed⟩ := Amount.sign_of_signed h
      cases Amount.read_decimal read'
      refine ⟨given, magnitude, named, Except.liftFault_eq_ok.1 taken, signed, own, ?_⟩
      rw [if_neg falsy, ← eq_of_direction (Except.liftFault_eq_ok.1 told)]
      exact chosen

theorem admits_of_named (named : Nature.of? c.nature = some direction)
    (h : r.editAmount c = .ok y) : direction.Admits y := by
  have text : ∃ s : String, c.nature = .text s ∧ s ≠ "" := by
    unfold Nature.of? at named
    split at named
    · next e => exact ⟨_, e, by decide⟩
    · next e => exact ⟨_, e, by decide⟩
    · cases named
  obtain ⟨s, given, some⟩ := text
  rcases editAmount_cases h with ⟨-, none, -⟩ | ⟨_, magnitude, _, taken, signed, -, chosen⟩
  · rw [given] at none
    cases none
  · have truthy : c.nature.isTruthy = true := by
      rw [given]
      simpa [Json.isTruthy, String.isEmpty_iff] using some
    rw [if_pos truthy, named] at chosen
    cases chosen
    exact Nature.admits_of_sign signed (Decimal.sign_of_abs taken).1

/-- **An amount that is changed without a direction stays on its side**, unless it was zero: then
money in is not told from money out. -/
theorem admits_of_unnamed (unnamed : Nature.of? c.nature = none) (h : r.editAmount c = .ok y)
    (admits : direction.Admits r.amount)
    (told : direction = .inflow → c.amount.isNull = false → r.amount.sign ≠ 0) :
    direction.Admits y := by
  rcases editAmount_cases h with ⟨-, -, rfl⟩ | ⟨given, magnitude, _, taken, signed, own, chosen⟩
  · exact admits
  obtain ⟨above, nothing⟩ := Decimal.sign_of_abs taken
  have falsy : ¬ c.nature.isTruthy = true := by
    intro truthy
    rw [if_pos truthy, unnamed] at chosen
    cases chosen
  rw [if_neg falsy] at chosen
  by_cases below : r.amount.sign < 0
  · rw [if_pos below] at chosen
    cases chosen
    cases direction with
    | inflow => exact Nature.admits_of_sign signed above
    | outflow => exact absurd admits (Int.not_le.2 below)
  · rw [if_neg below] at chosen
    cases chosen
    cases signed
    cases direction with
    | outflow => exact above
    | inflow =>
      have zero : r.amount.sign = 0 := Int.le_antisymm admits (Int.not_lt.1 below)
      cases null : c.amount.isNull with
      | false => exact absurd zero (told rfl null)
      | true =>
        cases own null
        exact Nature.admits_of_zero (nothing zero)

theorem amount_of_edit (h : r.edit c = .ok made) : r.editAmount c = .ok made.amount := by
  unfold edit at h
  obtain ⟨amount, changed, h⟩ := Except.bind_eq_ok.1 h
  cases h
  exact changed

/-- a row that is put in the place of another has its amount as it comes back, or the other's of the
same value -/
theorem admits_of_over? (h : made.over? old = some settled)
    (admits : direction.Admits made.amount) : direction.Admits settled.amount := by
  unfold over? settled? at h
  obtain ⟨_, kept, rfl⟩ := Option.map_eq_some_iff.1 h
  obtain ⟨amount, settles, rfl⟩ := Option.map_eq_some_iff.1 kept
  dsimp only
  split
  · next same =>
    exact Decimal.Follows.admits (.inr (Decimal.sign_of_sameValue same).symm) admits
  · exact (follows_of_settle? settles).admits admits

namespace Updated

variable {b : Book} {now : Instant}

theorem admits (h : r.Updated b now c settled)
    (each : ∀ y, r.editAmount c = .ok y → direction.Admits y) :
    direction.Admits settled.amount := by
  cases h with
  | kept edit flag inPlace => exact admits_of_over? inPlace (each _ (amount_of_edit edit))
  | relocked edit flag asked decided inPlace =>
    refine admits_of_over? inPlace ?_
    rw [amount_stampedBy]
    exact each _ (amount_of_edit edit)

end Updated

end Row

end Billfold
