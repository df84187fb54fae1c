import Billfold.Proofs.Number.Digits
import Billfold.Proofs.Number.Nearest

/-!
# The shortest digits read back

* `Binary64.ofDecimal_of_contains`   a decimal of the interval of a number rounds to the number
* `shortestDigits_contained`         the shortest digits are such a decimal
* `ofDecimal_shortest`               so they read back as the number, however they are written
-/

namespace Billfold

-- powers of natural numbers are those of the core library, whatever is imported beside this module
attribute [local instance (2000)] instPowNat

open Binary64

variable {significand : Nat} {e : Int}

/-! ## powers of ten -/

theorem tenPower_ratio (n : Int) :
    0 < (tenPower n).1 ∧ 0 < (tenPower n).2 ∧
      ((tenPower n).1 : ℚ) / (tenPower n).2 = 10 ^ n := by
  unfold tenPower
  by_cases h : 0 ≤ n
  · obtain ⟨k, rfl⟩ := Int.eq_ofNat_of_zero_le h
    rw [if_pos h, Int.toNat_natCast]
    refine ⟨Nat.pow_pos (by decide), Nat.one_pos, ?_⟩
    push_cast
    rw [zpow_natCast, div_one]
  · obtain ⟨k, rfl⟩ : ∃ k : Nat, n = -(k : Int) := ⟨(-n).toNat, by omega⟩
    rw [if_neg h, Int.neg_neg, Int.toNat_natCast]
    refine ⟨Nat.one_pos, Nat.pow_pos (by decide), ?_⟩
    push_cast
    rw [zpow_neg, zpow_natCast, one_div]

theorem digitCount_bounds {n : Nat} (h : n ≠ 0) :
    (10 : ℚ) ^ ((digitCount n : Int) - 1) ≤ n ∧ (n : ℚ) < 10 ^ (digitCount n : Int) := by
  have some_digit := digitCount_pos n
  have low : ((10 ^ (digitCount n - 1) : Nat) : ℚ) ≤ n := Nat.cast_le.2 (pow_digitCount_le h)
  have high : (n : ℚ) < ((10 ^ digitCount n : Nat) : ℚ) := Nat.cast_lt.2 (lt_pow_digitCount n)
  push_cast at low high
  rw [show (digitCount n : Int) - 1 = (digitCount n - 1 : Nat) by omega, zpow_natCast, zpow_natCast]
  exact ⟨low, high⟩

theorem decimalExponent_le {num den : Nat} (hn : num ≠ 0) (hd : 0 < den) :
    (10 : ℚ) ^ decimalExponent num den ≤ (num : ℚ) / den := by
  have den_pos : (0 : ℚ) < den := by positivity
  have low := (digitCount_bounds hn).1
  have high := (digitCount_bounds (Nat.pos_iff_ne_zero.1 hd)).2
  rw [decimalExponent]
  generalize (digitCount num : Int) = a at *
  generalize (digitCount den : Int) = b at *
  obtain ⟨-, pos, quotient⟩ := tenPower_ratio (a - b)
  by_cases le : (tenPower (a - b)).1 * den ≤ num * (tenPower (a - b)).2
  · rw [if_pos le, ← quotient, div_le_div_iff₀ (by positivity) den_pos]
    exact_mod_cast le
  · rw [if_neg le, le_div_iff₀ den_pos]
    calc (10 : ℚ) ^ (a - b - 1) * den ≤ 10 ^ (a - b - 1) * 10 ^ b := by gcongr
      _ = 10 ^ (a - 1) := by
          rw [← zpow_add₀ (by norm_num), show a - b - 1 + b = a - 1 by omega]
      _ ≤ num := low

/-! ## decimals of an interval -/

namespace Binary64

/-- `2 ^ 93` is just below `10 ^ 28`, which measures the ends of the range -/
theorem pow_two_le : (2 : ℚ) ^ (1023 : Int) ≤ 10 ^ (308 : Int) := by
  have close : (2 : ℚ) ^ 93 ≤ 10 ^ 28 := by norm_num
  rw [zpow_ofNat, zpow_ofNat, show 1023 = 93 * 11 from rfl, show 308 = 28 * 11 from rfl, pow_mul,
    pow_mul]
  exact pow_le_pow_left₀ (by positivity) close 11

theorem range_of_contains {v : ℚ} {negative : Bool}
    (standard : (finite negative significand e).IsStandard) (some_digit : significand ≠ 0)
    (h : (Reach.of significand e).Contains v) :
    (10 : ℚ) ^ (-330 : Int) ≤ v ∧ v < 10 ^ (310 : Int) := by
  obtain ⟨below, above, -, -⟩ := Reach.near_of_contains some_digit h
  obtain ⟨digits, least, most, -⟩ := standard
  have least_unit : (2 : ℚ) ^ (-1074 : Int) ≤ 2 ^ e := zpow_le_zpow_right₀ (by norm_num) least
  have most_unit : (2 : ℚ) ^ e ≤ 2 ^ (971 : Int) := zpow_le_zpow_right₀ (by norm_num) most
  have one_le : (1 : ℚ) ≤ significand := by exact_mod_cast Nat.one_le_iff_ne_zero.2 some_digit
  have digits_le : (significand : ℚ) + 1 ≤ 2 * leastFull := by exact_mod_cast digits
  have unit : (0 : ℚ) < 2 ^ e := by positivity
  have ends := pow_two_le
  constructor
  · calc (10 : ℚ) ^ (-330 : Int) ≤ 10 ^ (-308 : Int) * 10 ^ (-22 : Int) := by
          rw [← zpow_add₀ (by norm_num)]
          exact zpow_le_zpow_right₀ (by norm_num) (by norm_num)
      _ ≤ 2 ^ (-1023 : Int) * 2 ^ (-52 : Int) := by
          rw [zpow_neg, zpow_neg 2 1023]
          exact mul_le_mul (inv_anti₀ (by positivity) ends) (by norm_num) (by positivity)
            (by positivity)
      _ = 1 / 2 * 2 ^ (-1074 : Int) := by
          rw [← zpow_add₀ (by norm_num), show (-1074 : Int) = -1023 + -52 + 1 by decide,
            pow_succ_int]
          ring
      _ ≤ (significand - 1 / 2) * 2 ^ e :=
          mul_le_mul (by linarith only [one_le]) least_unit (by positivity)
            (by linarith only [one_le])
      _ ≤ v := below
  · calc v ≤ (significand + 1 / 2) * 2 ^ e := above
      _ ≤ 2 * leastFull * 2 ^ (971 : Int) :=
          mul_le_mul (by linarith only [digits_le]) most_unit unit.le
            (by linarith only [one_le, digits_le])
      _ = 2 * 2 ^ (1023 : Int) := by
          rw [leastFull_eq, show (1023 : Int) = 52 + 971 by decide, zpow_add₀ (by norm_num) 52]
          ring
      _ ≤ 2 * 10 ^ (308 : Int) := mul_le_mul_of_nonneg_left ends (by norm_num)
      _ < 10 ^ (2 : Int) * 10 ^ (308 : Int) :=
          mul_lt_mul_of_pos_right (by norm_num) (by positivity)
      _ = 10 ^ (310 : Int) := by
          rw [← zpow_add₀ (by norm_num)]
          rfl

theorem ofDecimal_of_contains {coefficient : Nat} {place : Int} (negative : Bool)
    (standard : (finite negative significand e).IsStandard) (some_digit : significand ≠ 0)
    (h : (Reach.of significand e).Contains (coefficient * 10 ^ place)) :
    ofDecimal negative coefficient place = finite negative significand e := by
  obtain ⟨small, large⟩ := range_of_contains standard some_digit h
  have ten : (0 : ℚ) < 10 ^ place := by positivity
  have not_zero : coefficient ≠ 0 := by
    rintro rfl
    rw [Nat.cast_zero, zero_mul] at small
    exact absurd small (not_le.2 (by positivity))
  obtain ⟨low, high⟩ := digitCount_bounds not_zero
  -- the power of ten above the decimal
  have top_le : place + digitCount coefficient ≤ 310 := by
    by_contra more
    have : (10 : ℚ) ^ (310 : Int) ≤ 10 ^ ((digitCount coefficient : Int) - 1) * 10 ^ place := by
      rw [← zpow_add₀ (by norm_num)]
      exact zpow_le_zpow_right₀ (by norm_num) (by omega)
    have : (10 : ℚ) ^ ((digitCount coefficient : Int) - 1) * 10 ^ place ≤
        coefficient * 10 ^ place := mul_le_mul_of_nonneg_right low ten.le
    linarith
  have le_top : -330 ≤ place + digitCount coefficient := by
    by_contra less
    have : (10 : ℚ) ^ (digitCount coefficient : Int) * 10 ^ place ≤ 10 ^ (-330 : Int) := by
      rw [← zpow_add₀ (by norm_num)]
      exact zpow_le_zpow_right₀ (by norm_num) (by omega)
    have : (coefficient : ℚ) * 10 ^ place < 10 ^ (digitCount coefficient : Int) * 10 ^ place :=
      mul_lt_mul_of_pos_right high ten
    linarith
  unfold ofDecimal
  rw [if_neg not_zero]
  dsimp only
  rw [if_neg (by omega), if_neg (by omega)]
  split
  · rename_i whole
    obtain ⟨k, rfl⟩ := Int.eq_ofNat_of_zero_le whole
    rw [Int.toNat_natCast]
    refine ofRatio_of_contains negative standard some_digit Nat.one_pos ?_
    push_cast
    rwa [div_one, ← zpow_natCast]
  · rename_i fraction
    obtain ⟨k, rfl⟩ : ∃ k : Nat, place = -(k : Int) := ⟨(-place).toNat, by omega⟩
    rw [Int.neg_neg, Int.toNat_natCast]
    refine ofRatio_of_contains negative standard some_digit (Nat.pow_pos (by decide)) ?_
    push_cast
    rwa [div_eq_mul_inv, ← zpow_natCast, ← zpow_neg]

end Binary64

/-! ## the digits that are found -/

theorem contains_of_gridPoint? {r : Reach} {place : Int} {digits : Nat} (pos : 0 < r.quarter.2)
    (h : gridPoint? r place = some digits) : r.Contains (digits * 10 ^ place) := by
  obtain ⟨-, scale_pos, quotient⟩ := tenPower_ratio place
  unfold gridPoint? at h
  dsimp only at h
  generalize tenPower place = power at *
  have contained : ∀ n : Nat, r.holds (n * power.1) power.2 = true →
      r.Contains (n * 10 ^ place) := by
    intro n holds
    rw [Reach.holds_iff pos scale_pos] at holds
    push_cast at holds
    rwa [mul_div_assoc, quotient] at holds
  split at h
  · rename_i both
    obtain ⟨lower, upper⟩ := Bool.and_eq_true_iff.1 both
    cases h
    rcases roundHalfEven_eq_or (r.centre * r.quarter.1 * power.2) (r.quarter.2 * power.1) with
      down | up
    · rw [down]
      exact contained _ lower
    · rw [up]
      exact contained _ upper
  · split at h
    · cases h
      exact contained _ ‹_›
    · split at h
      · cases h
        exact contained _ ‹_›
      · cases h

/-- 18 digits are always enough -/
theorem contains_nearest {negative : Bool} {place : Int}
    (standard : (finite negative significand e).IsStandard) (some_digit : significand ≠ 0)
    (fine : (10 : ℚ) ^ (place + 17) ≤ significand * 2 ^ e) :
    let r := Reach.of significand e
    let power := tenPower place
    r.Contains
      (roundHalfEven (r.centre * r.quarter.1 * power.2) (r.quarter.2 * power.1) * 10 ^ place) := by
  obtain ⟨ten_pos, scale_pos, quotient⟩ := tenPower_ratio place
  obtain ⟨pos, quarter⟩ := Reach.quarter_of significand e
  intro r power
  have unit : (0 : ℚ) < 2 ^ e := by positivity
  have ten : (0 : ℚ) < 10 ^ place := by positivity
  have value : ((r.centre * r.quarter.1 * power.2 : Nat) : ℚ) / (r.quarter.2 * power.1 : Nat) =
      significand * 2 ^ e / 10 ^ place := by
    rw [← quotient, div_div_eq_mul_div]
    push_cast
    rw [mul_div_mul_comm, mul_div_assoc, quarter, show r.centre = 4 * significand from rfl]
    push_cast
    ring
  obtain ⟨above, below⟩ := roundHalfEven_within (r.centre * r.quarter.1 * power.2)
    (Nat.mul_pos pos ten_pos)
  generalize roundHalfEven _ _ = digits at *
  rw [value, sub_le_iff_le_add, div_le_iff₀ ten] at above
  rw [value, ← sub_le_iff_le_add, le_div_iff₀ ten] at below
  -- a unit of the decimal place is a small part of a binary one
  have small : (10 : ℚ) ^ place / 2 ≤ 2 ^ e / 8 := by
    rw [zpow_add₀ (by norm_num)] at fine
    have digits_le : (significand : ℚ) < 2 * leastFull := by exact_mod_cast standard.1
    have most : (10 : ℚ) ^ place * 10 ^ (17 : Int) ≤ 2 * leastFull * 2 ^ e :=
      fine.trans (mul_le_mul_of_nonneg_right digits_le.le unit.le)
    norm_num [leastFull] at most
    linarith
  refine Reach.contains_of_near some_digit ?_ ?_ <;> linarith

theorem shortestFrom_contained {negative : Bool} {top : Int} {steps count : Nat}
    (standard : (finite negative significand e).IsStandard) (some_digit : significand ≠ 0)
    (fine : (10 : ℚ) ^ top ≤ significand * 2 ^ e) (enough : steps + count = 18) :
    (Reach.of significand e).Contains
      ((shortestFrom (Reach.of significand e) top steps count).1 *
        10 ^ (shortestFrom (Reach.of significand e) top steps count).2) := by
  induction steps generalizing count with
  | zero =>
    unfold shortestFrom
    refine contains_nearest standard some_digit ?_
    rwa [show top - count + 1 + 17 = top by omega]
  | succ steps ih =>
    unfold shortestFrom
    split
    · rename_i digits found
      exact contains_of_gridPoint? (Reach.quarter_of significand e).1 found
    · exact ih (by omega)

theorem dropZeros_value (steps digits : Nat) (place : Int) :
    ((dropZeros steps digits place).1 : ℚ) * 10 ^ (dropZeros steps digits place).2 =
      digits * 10 ^ place := by
  induction steps generalizing digits place with
  | zero => rfl
  | succ steps ih =>
    unfold dropZeros
    split
    · rename_i zero
      rw [ih, zpow_add₀ (by norm_num), zpow_one]
      obtain ⟨k, rfl⟩ : ∃ k, digits = 10 * k := ⟨digits / 10, by omega⟩
      rw [Nat.mul_div_cancel_left k (by decide)]
      push_cast
      ring
    · rfl

/-- **The shortest digits lie in the interval of the number.** -/
theorem shortestDigits_contained {negative : Bool}
    (standard : (finite negative significand e).IsStandard) (some_digit : significand ≠ 0) :
    (Reach.of significand e).Contains
      ((shortestDigits significand e).1 * 10 ^ (shortestDigits significand e).2) := by
  obtain ⟨pos, quarter⟩ := Reach.quarter_of significand e
  have unit : (0 : ℚ) < 2 ^ e := by positivity
  have value : (((Reach.of significand e).centre * (Reach.of significand e).quarter.1 : Nat) : ℚ) /
      (Reach.of significand e).quarter.2 = significand * 2 ^ e := by
    push_cast
    rw [mul_div_assoc, quarter, show (Reach.of significand e).centre = 4 * significand from rfl]
    push_cast
    ring
  have not_zero : (Reach.of significand e).centre * (Reach.of significand e).quarter.1 ≠ 0 := by
    intro zero
    rw [zero, Nat.cast_zero, zero_div] at value
    have : (0 : ℚ) < significand := by positivity
    have : (0 : ℚ) < significand * 2 ^ e := by positivity
    linarith
  have fine := decimalExponent_le not_zero pos
  rw [value] at fine
  rw [shortestDigits]
  generalize decimalExponent _ _ = top at *
  rw [dropZeros_value]
  exact shortestFrom_contained standard some_digit fine rfl

theorem shortestDigits_ne_zero {negative : Bool}
    (standard : (finite negative significand e).IsStandard) (some_digit : significand ≠ 0) :
    (shortestDigits significand e).1 ≠ 0 := by
  intro zero
  have contained := shortestDigits_contained standard some_digit
  rw [zero, Nat.cast_zero, zero_mul] at contained
  have small := (range_of_contains standard some_digit contained).1
  exact absurd small (not_le.2 (by positivity))

theorem ofDecimal_shortest {negative : Bool} {coefficient : Nat} {place : Int}
    (standard : (finite negative significand e).IsStandard) (some_digit : significand ≠ 0)
    (same : (coefficient : ℚ) * 10 ^ place =
      (shortestDigits significand e).1 * 10 ^ (shortestDigits significand e).2) :
    ofDecimal negative coefficient place = finite negative significand e := by
  refine ofDecimal_of_contains negative standard some_digit ?_
  rw [same]
  exact shortestDigits_contained standard some_digit

end Billfold
