import Billfold.Proofs.Calendar.Months
import Billfold.Proofs.Plan.Divide

/-!
# A plan is complete or there is none

A plan is made exactly if the amount, the count and the mode can be read and its last period still
lies in the calendar.  It then has all its periods, each with its number, its month and its name.

* `Amount.readValue_eq_ok`, `Mode.read_isOk`, `readCount_eq_ok`   what can be read
* `linesOf_isOk`        when the lines can be made
* `Plan.Complete`       what is asked of the lines of a plan
* `Plan.complete_of_lines`   lines that are made in their places
* `split_complete`      when a plan is made, and what it then is
-/

namespace Billfold

-- powers and zero are those of the core library, whatever is imported beside this module
attribute [local instance (2000)] instPowNat Zero.ofOfNat0

/-! ## what can be read -/

/-- **The amounts that can be read** are texts of finite numbers; a missing or a truth value is
none. -/
theorem Amount.readValue_eq_ok {v : Json} {x : Decimal} :
    readValue v = .ok x ↔
      v ≠ .null ∧ (∀ b, v ≠ .bool b) ∧ Decimal.ofText? v.words = some x ∧ x.isFinite = true := by
  constructor
  · intro h
    have number := isFinite_of_readValue h
    unfold readValue at h
    split at h
    · cases h
    · cases h
    · next missing truth =>
      split at h
      · next y text =>
        unfold finite at h
        split at h
        · cases h
          exact ⟨missing, truth, text, number⟩
        · cases h
      · cases h
  · rintro ⟨missing, truth, text, number⟩
    unfold readValue
    split
    · exact absurd rfl missing
    · exact absurd rfl (truth _)
    · rw [text]
      exact if_pos number

namespace Mode

theorem eq_of_ofText? {s : String} {m : Mode} (h : ofText? s = some m) : s = m.text := by
  unfold ofText? at h
  split at h
  · cases h; rfl
  · cases h; rfl
  · cases h

/-- **The modes that can be read**: nothing, an empty text, or the text of a mode. -/
theorem read_isOk {default : String} {d : Mode} (valid : ofText? default = some d) {v : Json} :
    (∃ m, read default v = .ok m) ↔ v = .null ∨ v = .text "" ∨ ∃ m : Mode, v = .text m.text := by
  unfold read
  rw [valid]
  constructor
  · rintro ⟨m, h⟩
    split at h
    · next absent =>
      cases v with
      | null => exact .inl rfl
      | text s => exact .inr (.inl (congrArg Json.text (String.isEmpty_iff.1 absent)))
      | _ => cases absent
    · split at h
      · next m' named =>
        cases v with
        | text s => exact .inr (.inr ⟨m', congrArg Json.text (eq_of_ofText? named)⟩)
        | _ => cases named
      · cases h
  · rintro (rfl | rfl | ⟨m, rfl⟩)
    · exact ⟨d, rfl⟩
    · exact ⟨d, rfl⟩
    · refine ⟨m, ?_⟩
      cases m <;> rfl

end Mode

/-- **The counts that can be read** are whole numbers; low ones stand for one. -/
theorem readCount_eq_ok {limit : Int} {v : Json} {n : Nat} :
    readCount limit v = .ok n ↔
      ∃ k, wholeCount v = .ok k ∧ max 1 k ≤ limit ∧ (n : Int) = max 1 k := by
  unfold readCount
  rw [Except.bind_eq_ok]
  refine exists_congr fun k => and_congr_right fun _ => ?_
  unfold clampCount
  constructor
  · intro h
    split at h
    · cases h
    · cases h
      omega
  · rintro ⟨within, same⟩
    rw [if_neg (by omega), ← same, Int.toNat_natCast]

/-! ## lines -/

section
variable {start : Date} {name : String} {count : Nat} {amounts : List Decimal}

theorem lineOf_isOk {i : Nat} {amount : Decimal} :
    (∃ line, lineOf start name count i amount = .ok line) ↔
      ∃ date, start.addMonths i = .ok date := by
  constructor
  · rintro ⟨line, h⟩
    obtain ⟨date, moved, -⟩ := Except.bind_eq_ok.1 h
    exact ⟨date, moved⟩
  · rintro ⟨date, moved⟩
    exact ⟨_, Except.bind_eq_ok.2 ⟨date, moved, rfl⟩⟩

theorem addMonths_isOk_nat (d : Date) (i : Nat) :
    (∃ e, d.addMonths i = .ok e) ↔ d.inMonth.shift i ≤ Month.of 9999 12 := by
  have first := d.year_inMonth_pos
  rw [Date.addMonths_isOk, Month.le_def, Month.index_shift]
  unfold Month.year at first ⊢
  rw [Month.index_shift]
  show _ ↔ _ ≤ (12 * 9999 + (12 - 1) : Int)
  omega

/-- **The lines can be made if the last one still has its month.** -/
theorem linesOf_isOk (some : 0 < amounts.length) :
    (∃ lines, linesOf start name count amounts = .ok lines) ↔
      start.inMonth.shift ((amounts.length : Int) - 1) ≤ Month.of 9999 12 := by
  unfold linesOf
  rw [Except.mapM_isOk]
  constructor
  · intro each
    obtain ⟨last, place⟩ : ∃ last, amounts[amounts.length - 1]? = Option.some last :=
      ⟨_, List.getElem?_eq_getElem (by omega)⟩
    have mem : (last, amounts.length - 1) ∈ amounts.zipIdx := by
      rw [List.mem_zipIdx_iff_getElem?]
      exact place
    have := (addMonths_isOk_nat start _).1 (lineOf_isOk.1 (each _ mem))
    rwa [Int.natCast_sub some] at this
  · rintro within ⟨amount, i⟩ mem
    have place := List.mem_zipIdx_iff_getElem?.1 mem
    have before : i < amounts.length := (List.getElem?_eq_some_iff.1 place).1
    refine lineOf_isOk.2 ((addMonths_isOk_nat start i).2 ?_)
    rw [Month.le_def, Month.index_shift] at within ⊢
    omega

end

namespace Plan

/-- the lines of a plan in `n` periods from a day on: numbered from one, each a month after the one
before and on the same day of it, or on its last one -/
structure Complete (p : Plan) (start : Date) (name : String) (n : Nat) : Prop where
  length : p.lines.length = n
  index {i : Nat} {line : Line} : p.lines[i]? = some line → line.index = i + 1
  inMonth {i : Nat} {line : Line} :
    p.lines[i]? = some line → line.date.inMonth = start.inMonth.shift i
  day {i : Nat} {line : Line} :
    p.lines[i]? = some line → line.date.day = min start.day line.date.inMonth.lastDay
  ascending : (p.lines.map Line.date).Pairwise (· < ·)
  suffix {i : Nat} {line : Line} : p.lines[i]? = some line → line.suffix = s!"({i + 1}/{n})"
  named {i : Nat} {line : Line} :
    p.lines[i]? = some line → line.name = name ++ " " ++ line.suffix
  tag {i : Nat} {line : Line} :
    p.lines[i]? = some line → p.tag line = ⟨some p.group, (i : Int) + 1, n, p.mode⟩

variable {rules : PlanRules} {amount : Amount} {count mode : Json} {start : Date}
variable {name group : String} {p : Plan} {n : Nat}

/-- **The lines of a plan are complete** if there is one for each period, made in its place. -/
theorem complete_of_lines (length : p.lines.length = n)
    (made : ∀ {i line}, p.lines[i]? = some line → ∃ part, lineOf start name n i part = .ok line) :
    p.Complete start name n := by
  have fields {i : Nat} {line : Line} (hl : p.lines[i]? = some line) :
      ∃ part date, start.addMonths i = .ok date ∧
        line = ⟨i + 1, part, date, suffix (i + 1) n, name ++ " " ++ suffix (i + 1) n⟩ := by
    obtain ⟨part, made⟩ := made hl
    obtain ⟨date, moved, made⟩ := Except.bind_eq_ok.1 made
    exact ⟨part, date, moved, (Except.ok.inj made).symm⟩
  have moved {i : Nat} {line : Line} (hl : p.lines[i]? = some line) :
      start.addMonths i = .ok line.date := by
    obtain ⟨part, date, moved, rfl⟩ := fields hl
    exact moved
  refine ⟨length, fun hl => ?_, fun hl => (Date.inMonth_of_addMonths (moved hl)).1,
    fun hl => (Date.inMonth_of_addMonths (moved hl)).2, ?_, fun hl => ?_, fun hl => ?_,
    fun hl => ?_⟩
  · obtain ⟨part, date, -, rfl⟩ := fields hl
    rfl
  · rw [List.pairwise_map, List.pairwise_iff_getElem]
    intro i j hi hj before
    exact Date.lt_of_addMonths (Int.ofNat_lt.2 before) (moved (List.getElem?_eq_getElem hi))
      (moved (List.getElem?_eq_getElem hj))
  · obtain ⟨part, date, -, rfl⟩ := fields hl
    rfl
  · obtain ⟨part, date, -, rfl⟩ := fields hl
    rfl
  · obtain ⟨part, date, -, rfl⟩ := fields hl
    unfold tag
    rw [length]
    rfl

theorem of_isOk :
    (∃ p, of rules amount count mode start name group = .ok p) ↔
      ∃ x n m parts, amount.read = .ok x ∧ readCount rules.maxCount count = .ok n ∧
        Mode.read rules.defaultMode mode = .ok m ∧ amounts m x n = .ok parts ∧
        ∃ lines, linesOf start name n parts = .ok lines := by
  constructor
  · rintro ⟨p, h⟩
    obtain ⟨-, named, x, n, parts, read, counted, cut, listed⟩ := of_ok h
    exact ⟨x, n, p.mode, parts, read, counted, named, cut, p.lines, listed⟩
  · rintro ⟨x, n, m, parts, read, counted, named, cut, lines, listed⟩
    refine ⟨⟨group, m, lines⟩, Except.bind_eq_ok.2 ⟨x, read, Except.bind_eq_ok.2 ⟨n, counted, ?_⟩⟩⟩
    refine Except.bind_eq_ok.2 ⟨m, named, ?_⟩
    exact Except.bind_eq_ok.2 ⟨parts, Except.liftFault_eq_ok.2 cut,
      Except.bind_eq_ok.2 ⟨lines, Except.liftFault_eq_ok.2 listed, rfl⟩⟩

theorem amounts_isOk {x : Decimal} (number : x.isFinite) (small : |x.value| < 10 ^ (999996 : Int))
    (some : 0 < n) (m : Mode) : ∃ parts, amounts m x n = .ok parts := by
  cases m with
  | replicate => exact ⟨_, rfl⟩
  | divide => exact divide_isOk number small some

end Plan

theorem Plan.groupOr_ne_empty {fresh : String} (token : fresh ≠ "") (given : Option String) :
    groupOr fresh given ≠ "" := by
  cases given with
  | none => exact token
  | some g =>
    unfold groupOr
    dsimp only
    split
    · exact token
    · next named => exact fun empty => named (String.isEmpty_iff.2 empty)

/-! ## plans -/

/-- **A plan is complete or there is none.**  It is made exactly if the amount is the text of a
finite number, the count is a whole number within the limit, the mode is missing or known and the
last period lies in the calendar.  All its lines are there then, in one group, and they carry the
amount or its parts. -/
theorem split_complete {rules : PlanRules} {d : Mode} {v count mode : Json} {start : Date}
    {name group : Option String} {fresh : String} (valid : Mode.ofText? rules.defaultMode = some d)
    (token : fresh ≠ "")
    (small : ∀ x, Amount.readValue v = .ok x → |x.value| < 10 ^ (999996 : Int)) :
    ((∃ p, Plan.split rules (.value v) count mode start name group fresh = .ok p) ↔
      (v ≠ .null ∧ (∀ b, v ≠ .bool b) ∧ ∃ x, Decimal.ofText? v.words = some x ∧ x.isFinite = true) ∧
      (∃ k, wholeCount count = .ok k ∧ max 1 k ≤ rules.maxCount ∧
        start.inMonth.shift (max 1 k - 1) ≤ Month.of 9999 12) ∧
      (mode = .null ∨ mode = .text "" ∨ ∃ m : Mode, mode = .text m.text)) ∧
    ∀ p, Plan.split rules (.value v) count mode start name group fresh = .ok p →
      ∃ (x : Decimal) (k : Int) (n : Nat), Amount.readValue v = .ok x ∧ wholeCount count = .ok k ∧
        (n : Int) = max 1 k ∧ Mode.read rules.defaultMode mode = .ok p.mode ∧
        p.group = Plan.groupOr fresh group ∧ p.group ≠ "" ∧ p.Complete start (name.getD "") n ∧
        match p.mode with
        | .replicate => p.lines.map Line.amount = List.replicate n x
        | .divide => divide x n = .ok (p.lines.map Line.amount) := by
  constructor
  · rw [← Mode.read_isOk valid]
    unfold Plan.split
    rw [Plan.of_isOk]
    constructor
    · rintro ⟨x, n, m, parts, read, counted, named, cut, listed⟩
      obtain ⟨missing, truth, text, number⟩ := Amount.readValue_eq_ok.1 read
      obtain ⟨k, whole, within, same⟩ := readCount_eq_ok.1 counted
      have length := Plan.length_amounts cut
      have last := (linesOf_isOk (by omega)).1 listed
      rw [length, same] at last
      exact ⟨⟨missing, truth, x, text, number⟩, ⟨k, whole, within, last⟩, m, named⟩
    · rintro ⟨⟨missing, truth, x, text, number⟩, ⟨k, whole, within, last⟩, m, named⟩
      have read := Amount.readValue_eq_ok.2 ⟨missing, truth, text, number⟩
      obtain ⟨n, same⟩ : ∃ n : Nat, (n : Int) = max 1 k := ⟨(max 1 k).toNat, by omega⟩
      obtain ⟨parts, cut⟩ := Plan.amounts_isOk number (small x read) (by omega : 0 < n) m
      have length := Plan.length_amounts cut
      refine ⟨x, n, m, parts, read, readCount_eq_ok.2 ⟨k, whole, within, same⟩, named, cut, ?_⟩
      refine (linesOf_isOk (by omega)).2 ?_
      rwa [length, same]
  · intro p h
    obtain ⟨grouped, named, x, n, parts, read, counted, cut, listed⟩ := Plan.of_ok h
    obtain ⟨k, whole, -, same⟩ := readCount_eq_ok.1 counted
    have carried := amounts_of_linesOf listed
    have length : p.lines.length = n := by
      rw [← List.length_map Line.amount, carried, Plan.length_amounts cut]
    have complete : p.Complete start (name.getD "") n :=
      Plan.complete_of_lines length fun hl =>
        (lineOf_of_linesOf listed hl).imp fun _ => And.right
    refine ⟨x, k, n, read, whole, same, named, grouped, ?_, complete, ?_⟩
    · rw [grouped]
      exact Plan.groupOr_ne_empty token group
    · rw [carried]
      cases hm : p.mode with
      | replicate =>
        rw [hm] at cut
        exact (Except.ok.inj cut).symm
      | divide =>
        rw [hm] at cut
        exact cut

/-- a rent from 31 January on, which is due on 29 February next -/
theorem split_complete_rent :
    ∃ p, Plan.split ⟨12, "divide"⟩ (.value (.text "90.00")) (.int 3) .null
        ⟨2024, 1, 31, by decide, by decide, by decide, by decide, by decide, by decide⟩
        (some "Rent") none "group-1" = .ok p ∧
      p.Complete ⟨2024, 1, 31, by decide, by decide, by decide, by decide, by decide, by decide⟩
        "Rent" 3 := by
  have read : Amount.readValue (.text "90.00") = .ok (.finite false 9000 (-2)) := by decide +kernel
  have small : ∀ x, Amount.readValue (.text "90.00") = .ok x → |x.value| < 10 ^ (999996 : Int) := by
    intro x h
    cases read.symm.trans h
    have wide : (10 : ℚ) ^ (2 : Int) ≤ 10 ^ (999996 : Int) :=
      zpow_le_zpow_right₀ (by norm_num) (by decide)
    refine lt_of_lt_of_le ?_ wide
    rw [Decimal.abs_value]
    norm_num
  obtain ⟨made, complete⟩ := @split_complete ⟨12, "divide"⟩ .divide (.text "90.00") (.int 3) .null
    ⟨2024, 1, 31, by decide, by decide, by decide, by decide, by decide, by decide⟩
    (some "Rent") none "group-1" rfl (by decide) small
  obtain ⟨missing, truth, text⟩ := Amount.readValue_eq_ok.1 read
  obtain ⟨p, h⟩ := made.2 ⟨⟨missing, truth, _, text⟩, ⟨3, rfl, by decide, by decide⟩, .inl rfl⟩
  obtain ⟨x, k, n, -, whole, count, -, -, -, lines, -⟩ := complete p h
  cases whole
  have three : n = 3 := by omega
  exact ⟨p, h, three ▸ lines⟩

end Billfold
