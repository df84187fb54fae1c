import Billfold.Plan.Basic
import Billfold.Proofs.Except

/-!
# How many periods a plan has

* `readCount_int`        a count that was read once reads as itself
* `length_divide`        a divided amount has the number of parts that is asked for
* `lineOf_of_linesOf`    what a line is made of
* `Plan.of_ok`           what a plan is made of
* `Plan.length_lines`    a plan has the number of lines that is asked for
* `Plan.line_of`         numbered from one, a month apart
-/

namespace Billfold

theorem readCount_int {limit : Int} {v : Json} {n : Nat} (h : readCount limit v = .ok n) :
    readCount limit (.int n) = .ok n := by
  unfold readCount at h
  obtain ⟨count, -, hc⟩ := Except.bind_eq_ok.1 h
  have pos := clampCount_pos hc
  have le := clampCount_le hc
  show clampCount limit n = _
  unfold clampCount
  have e : max 1 (n : Int) = n := by omega
  rw [e, if_neg (by omega), Int.toNat_natCast]

theorem length_divide {x : Decimal} {count : Nat} {parts : List Decimal}
    (h : divide x count = .ok parts) : parts.length = count := by
  unfold divide at h
  obtain ⟨negative, -, h⟩ := Except.bind_eq_ok.1 h
  obtain ⟨cents, -, h⟩ := Except.bind_eq_ok.1 h
  split at h
  · cases h
  · rw [Except.length_of_mapM h, length_centParts, Int.toNat_natCast]

theorem Plan.length_amounts {mode : Mode} {x : Decimal} {count : Nat} {amounts : List Decimal}
    (h : Plan.amounts mode x count = .ok amounts) : amounts.length = count := by
  cases mode with
  | replicate => cases h; exact List.length_replicate
  | divide => exact length_divide h

theorem lineOf_of_linesOf {start : Date} {name : String} {count i : Nat} {amounts : List Decimal}
    {lines : List Line} {line : Line} (h : linesOf start name count amounts = .ok lines)
    (hl : lines[i]? = some line) :
    ∃ amount, amounts[i]? = some amount ∧ lineOf start name count i amount = .ok line := by
  obtain ⟨⟨amount, k⟩, place, made⟩ := Except.getElem?_of_mapM h hl
  rw [List.getElem?_zipIdx, Option.map_eq_some_iff] at place
  obtain ⟨_, found, e⟩ := place
  cases e
  rw [Nat.zero_add] at made
  exact ⟨amount, found, made⟩

namespace Plan

variable {rules : PlanRules} {amount : Amount} {count mode : Json} {start : Date}
variable {name group : String} {p : Plan}

/-- a plan has the group that it is given and the mode that is named, or else the default, and a
line for each amount -/
theorem of_ok (h : of rules amount count mode start name group = .ok p) :
    p.group = group ∧ Mode.read rules.defaultMode mode = .ok p.mode ∧
      ∃ x n parts, amount.read = .ok x ∧ readCount rules.maxCount count = .ok n ∧
        amounts p.mode x n = .ok parts ∧ linesOf start name n parts = .ok p.lines := by
  unfold of at h
  obtain ⟨x, read, h⟩ := Except.bind_eq_ok.1 h
  obtain ⟨n, counted, h⟩ := Except.bind_eq_ok.1 h
  obtain ⟨mode, named, h⟩ := Except.bind_eq_ok.1 h
  obtain ⟨parts, cut, h⟩ := Except.bind_eq_ok.1 h
  obtain ⟨lines, listed, h⟩ := Except.bind_eq_ok.1 h
  cases h
  exact ⟨rfl, named, x, n, parts, read, counted, Except.liftFault_eq_ok.1 cut,
    Except.liftFault_eq_ok.1 listed⟩

/-- **A plan has as many lines as the count says.** -/
theorem length_lines (h : of rules amount count mode start name group = .ok p) :
    readCount rules.maxCount count = .ok p.lines.length := by
  obtain ⟨-, -, x, n, parts, -, counted, cut, listed⟩ := of_ok h
  have length := Except.length_of_mapM listed
  rw [List.length_zipIdx, length_amounts cut] at length
  rw [counted, length]

/-- **The periods of a plan are numbered from one and follow each other by months.** -/
theorem line_of (h : of rules amount count mode start name group = .ok p) {i : Nat} {line : Line}
    (hl : p.lines[i]? = some line) :
    line.index = i + 1 ∧ start.addMonths i = .ok line.date := by
  obtain ⟨-, -, x, n, parts, -, -, -, listed⟩ := of_ok h
  obtain ⟨part, -, made⟩ := lineOf_of_linesOf listed hl
  obtain ⟨date, moved, made⟩ := Except.bind_eq_ok.1 made
  cases made
  exact ⟨rfl, moved⟩

end Plan

end Billfold
