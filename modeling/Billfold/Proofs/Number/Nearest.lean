import Mathlib.Algebra.Order.Field.Power
import Mathlib.Tactic.FieldSimp
import Mathlib.Tactic.Linarith
import Mathlib.Tactic.Positivity
import Mathlib.Tactic.Ring
import Billfold.Number.Shortest
import Billfold.Proofs.Number.Rounding

/-!
# The nearest binary number

A quotient is measured as a rational number here: its binary number is told by the powers of two
that it lies between.

* `Binary64.exponentFor_spec`    the exponent leaves a significand of 53 digits, or is the least one
* `Binary64.IsStandard`          the numbers that rounding gives
* `Binary64.isStandard_ofRatio`  it gives no others
* `Reach.Contains`, `Reach.Near`  the quotients of an interval, and where they lie
* `Binary64.ofRatio_of_contains` all of them round to the number of the interval
-/

namespace Billfold

-- powers of natural numbers are those of the core library, whatever is imported beside this module
attribute [local instance (2000)] instPowNat

namespace Binary64

variable {num den : Nat}

/-! ## quotients and powers of two -/

theorem scaled_ratio (num : Nat) (pos : 0 < den) (e : Int) :
    0 < (scaled num den e).2 ∧
      ((scaled num den e).1 : ℚ) / (scaled num den e).2 = (num : ℚ) / den / 2 ^ e := by
  have hd : (den : ℚ) ≠ 0 := by positivity
  unfold scaled
  by_cases h : 0 ≤ e
  · obtain ⟨k, rfl⟩ := Int.eq_ofNat_of_zero_le h
    rw [if_pos h, Int.toNat_natCast]
    refine ⟨Nat.mul_pos pos (Nat.two_pow_pos k), ?_⟩
    push_cast
    rw [zpow_natCast, div_div]
  · obtain ⟨k, rfl⟩ : ∃ k : Nat, e = -(k : Int) := ⟨(-e).toNat, by omega⟩
    rw [if_neg h, Int.neg_neg, Int.toNat_natCast]
    refine ⟨pos, ?_⟩
    push_cast
    rw [zpow_neg, zpow_natCast]
    field_simp

theorem ratio_ratio (significand : Nat) (e : Int) :
    0 < (ratio significand e).2 ∧
      ((ratio significand e).1 : ℚ) / (ratio significand e).2 = significand * 2 ^ e := by
  unfold ratio
  by_cases h : 0 ≤ e
  · obtain ⟨k, rfl⟩ := Int.eq_ofNat_of_zero_le h
    rw [if_pos h, Int.toNat_natCast]
    refine ⟨Nat.one_pos, ?_⟩
    push_cast
    rw [zpow_natCast, div_one]
  · obtain ⟨k, rfl⟩ : ∃ k : Nat, e = -(k : Int) := ⟨(-e).toNat, by omega⟩
    rw [if_neg h, Int.neg_neg, Int.toNat_natCast]
    refine ⟨Nat.two_pow_pos k, ?_⟩
    push_cast
    rw [zpow_neg, zpow_natCast, div_eq_mul_inv]

theorem log2_bounds (hn : num ≠ 0) (hd : 0 < den) :
    (2 : ℚ) ^ ((Nat.log2 num : Int) - Nat.log2 den - 1) < (num : ℚ) / den ∧
      (num : ℚ) / den < 2 ^ ((Nat.log2 num : Int) - Nat.log2 den + 1) := by
  have two : (2 : ℚ) ≠ 0 := by norm_num
  have num_le : ((2 ^ Nat.log2 num : Nat) : ℚ) ≤ num := Nat.cast_le.2 (Nat.log2_self_le hn)
  have den_le : ((2 ^ Nat.log2 den : Nat) : ℚ) ≤ den :=
    Nat.cast_le.2 (Nat.log2_self_le (Nat.pos_iff_ne_zero.1 hd))
  have num_lt : (num : ℚ) < ((2 ^ (Nat.log2 num + 1) : Nat) : ℚ) := Nat.cast_lt.2 Nat.lt_log2_self
  have den_lt : (den : ℚ) < ((2 ^ (Nat.log2 den + 1) : Nat) : ℚ) := Nat.cast_lt.2 Nat.lt_log2_self
  push_cast at num_le den_le num_lt den_lt
  have den_pos : (0 : ℚ) < den := by positivity
  generalize Nat.log2 num = a at *
  generalize Nat.log2 den = b at *
  constructor
  · rw [show (a : Int) - b - 1 = a - (b + 1 : Nat) by omega, zpow_sub₀ two, zpow_natCast,
      zpow_natCast, div_lt_div_iff₀ (by positivity) den_pos]
    calc (2 : ℚ) ^ a * den < 2 ^ a * 2 ^ (b + 1) := by gcongr
      _ ≤ num * 2 ^ (b + 1) := by gcongr
  · rw [show (a : Int) - b + 1 = (a + 1 : Nat) - b by omega, zpow_sub₀ two, zpow_natCast,
      zpow_natCast, div_lt_div_iff₀ den_pos (by positivity)]
    calc (num : ℚ) * 2 ^ b < 2 ^ (a + 1) * 2 ^ b := by gcongr
      _ ≤ 2 ^ (a + 1) * den := by gcongr

/-- `2 ^ 52`, the least significand of 53 binary digits -/
theorem leastFull_eq : (leastFull : ℚ) = 2 ^ (52 : Int) := by
  norm_num [leastFull]

theorem pow_succ_int (e : Int) : (2 : ℚ) ^ (e + 1) = 2 * 2 ^ e := by
  rw [zpow_add₀ (by norm_num), zpow_one, mul_comm]

theorem exponentFor_spec (hn : num ≠ 0) (hd : 0 < den) :
    minExponent ≤ exponentFor num den ∧
      (num : ℚ) / den < 2 * leastFull * 2 ^ exponentFor num den ∧
      (minExponent < exponentFor num den →
        leastFull * 2 ^ exponentFor num den ≤ (num : ℚ) / den) := by
  obtain ⟨lower, upper⟩ := log2_bounds hn hd
  generalize guess_eq : (Nat.log2 num : Int) - Nat.log2 den - 52 = guess
  rw [show (Nat.log2 num : Int) - Nat.log2 den - 1 = guess - 1 + 52 by omega] at lower
  rw [show (Nat.log2 num : Int) - Nat.log2 den + 1 = guess + 52 + 1 by omega, pow_succ_int] at upper
  rw [zpow_add₀ (by norm_num), mul_comm, ← leastFull_eq] at lower upper
  obtain ⟨pos, quotient⟩ := scaled_ratio num hd guess
  have two : (0 : ℚ) < 2 ^ guess := by positivity
  have below : (scaled num den guess).1 < leastFull * (scaled num den guess).2 ↔
      (num : ℚ) / den < leastFull * 2 ^ guess := by
    rw [← div_lt_iff₀ two, ← quotient, div_lt_iff₀ (by positivity)]
    exact_mod_cast Iff.rfl
  have unfolded : exponentFor num den = max minExponent
      (if (scaled num den guess).1 < leastFull * (scaled num den guess).2 then guess - 1
        else guess) := by
    unfold exponentFor
    dsimp only
    rw [guess_eq]
  -- the significand is full at the guess, or at the exponent below
  obtain ⟨e, e_eq, full, short⟩ : ∃ e, exponentFor num den = max minExponent e ∧
      leastFull * 2 ^ e ≤ (num : ℚ) / den ∧ (num : ℚ) / den < 2 * leastFull * 2 ^ e := by
    rw [unfolded]
    by_cases h : (num : ℚ) / den < leastFull * 2 ^ guess
    · rw [if_pos (below.2 h)]
      have double := pow_succ_int (guess - 1)
      rw [Int.sub_add_cancel] at double
      have same : (2 : ℚ) * leastFull * 2 ^ (guess - 1) = leastFull * 2 ^ guess := by
        rw [double]
        ring
      exact ⟨_, rfl, lower.le, same ▸ h⟩
    · rw [if_neg fun lt => h (below.1 lt)]
      exact ⟨_, rfl, not_lt.1 h, by linarith⟩
  rw [e_eq]
  have grown : (2 : ℚ) ^ e ≤ 2 ^ max minExponent e :=
    zpow_le_zpow_right₀ (by norm_num) (le_max_right _ _)
  have some_full : (0 : ℚ) < leastFull := by norm_num [leastFull]
  refine ⟨le_max_left _ _, short.trans_le (by gcongr), fun lt => ?_⟩
  rw [max_eq_right (by omega)]
  exact full

/-! ## the numbers that rounding gives -/

/-- a number that rounding gives: its significand has 53 digits, or its exponent is the least -/
def IsStandard : Binary64 → Prop
  | finite _ significand exponent =>
    significand < 2 * leastFull ∧ minExponent ≤ exponent ∧ exponent ≤ maxExponent ∧
      (significand < leastFull → exponent = minExponent)
  | _ => True

theorem ofRatio_eq (negative : Bool) (hn : num ≠ 0) :
    ofRatio negative num den =
      let e := exponentFor num den
      let r := roundHalfEven (scaled num den e).1 (scaled num den e).2
      let e' := if r = 2 * leastFull then e + 1 else e
      if maxExponent < e' then .infinite negative
      else .finite negative (if r = 2 * leastFull then leastFull else r) e' := by
  unfold ofRatio
  rw [if_neg hn]
  dsimp only
  split <;> rfl

theorem isStandard_zero (negative : Bool) : (zero negative).IsStandard :=
  ⟨by decide, le_refl _, by decide, fun _ => rfl⟩

/-- **Rounding a quotient gives a standard number.** -/
theorem isStandard_ofRatio (negative : Bool) (num : Nat) (hd : 0 < den) :
    (ofRatio negative num den).IsStandard := by
  by_cases hn : num = 0
  · unfold ofRatio
    rw [if_pos hn]
    exact isStandard_zero negative
  obtain ⟨least, short, full⟩ := exponentFor_spec hn hd
  obtain ⟨pos, quotient⟩ := scaled_ratio num hd (exponentFor num den)
  have two : (0 : ℚ) < 2 ^ exponentFor num den := by positivity
  rw [← div_lt_iff₀ two, ← quotient, div_lt_iff₀ (by positivity)] at short
  rw [← le_div_iff₀ two, ← quotient, le_div_iff₀ (by positivity)] at full
  have short : (scaled num den (exponentFor num den)).1 <
      2 * leastFull * (scaled num den (exponentFor num den)).2 := by exact_mod_cast short
  have full : minExponent < exponentFor num den →
      leastFull * (scaled num den (exponentFor num den)).2 ≤
        (scaled num den (exponentFor num den)).1 := by exact_mod_cast full
  obtain ⟨near, near'⟩ := roundHalfEven_near (scaled num den (exponentFor num den)).1 pos
  rw [ofRatio_eq negative hn]
  dsimp only
  generalize roundHalfEven _ _ = r at *
  generalize exponentFor num den = e at *
  have at_most : r ≤ 2 * leastFull := by
    by_contra more
    have := Nat.mul_le_mul_right (scaled num den e).2 (Nat.succ_le_of_lt (Nat.lt_of_not_le more))
    rw [Nat.succ_mul] at this
    omega
  have at_least : minExponent < e → leastFull ≤ r := by
    intro lt
    by_contra less
    have := Nat.mul_le_mul_right (scaled num den e).2 (Nat.succ_le_of_lt (Nat.lt_of_not_le less))
    rw [Nat.succ_mul] at this
    have := full lt
    omega
  by_cases carried : r = 2 * leastFull
  · simp only [if_pos carried]
    split
    · trivial
    · exact ⟨by decide, by omega, by omega, fun lt => absurd lt (Nat.lt_irrefl _)⟩
  · simp only [if_neg carried]
    split
    · trivial
    · refine ⟨by omega, least, by omega, fun lt => ?_⟩
      by_contra ne
      exact absurd (at_least (by omega)) (Nat.not_le.2 lt)

theorem isStandard_ofDecimal (negative : Bool) (coefficient : Nat) (place : Int) :
    (ofDecimal negative coefficient place).IsStandard := by
  unfold ofDecimal
  split
  · exact isStandard_zero negative
  · dsimp only
    split
    · trivial
    · split
      · exact isStandard_zero negative
      · split
        · exact isStandard_ofRatio negative _ Nat.one_pos
        · exact isStandard_ofRatio negative _ (Nat.pow_pos (by decide))

/-! ## what rounds to a number -/

theorem full_le {e e' : Int} (h : e < e') :
    2 * leastFull * (2 : ℚ) ^ e ≤ leastFull * 2 ^ e' := by
  have step : (2 : ℚ) ^ (e + 1) ≤ 2 ^ e' := zpow_le_zpow_right₀ (by norm_num) (by omega)
  rw [pow_succ_int] at step
  have some_full : (0 : ℚ) < leastFull := by norm_num [leastFull]
  nlinarith

theorem exponentFor_eq {e : Int} (hn : num ≠ 0) (hd : 0 < den) (least : minExponent ≤ e)
    (short : (num : ℚ) / den < 2 * leastFull * 2 ^ e)
    (full : minExponent < e → leastFull * 2 ^ e ≤ (num : ℚ) / den) :
    exponentFor num den = e := by
  obtain ⟨least', short', full'⟩ := exponentFor_spec hn hd
  rcases lt_trichotomy (exponentFor num den) e with lt | eq | gt
  · have := full (by omega)
    have := full_le lt
    linarith
  · exact eq
  · have := full' (by omega)
    have := full_le gt
    linarith

theorem roundHalfEven_within (num : Nat) (pos : 0 < den) :
    (num : ℚ) / den - 1 / 2 ≤ roundHalfEven num den ∧
      (roundHalfEven num den : ℚ) ≤ num / den + 1 / 2 := by
  obtain ⟨below, above⟩ := roundHalfEven_near num pos
  have den_pos : (0 : ℚ) < den := by positivity
  have below : 2 * ((roundHalfEven num den : ℚ) * den) ≤ 2 * num + den := by exact_mod_cast below
  have above : 2 * (num : ℚ) ≤ 2 * (roundHalfEven num den * den) + den := by exact_mod_cast above
  constructor
  · rw [sub_le_iff_le_add, div_le_iff₀ den_pos]
    linarith
  · rw [← sub_le_iff_le_add, le_div_iff₀ den_pos]
    linarith

theorem roundHalfEven_of_near {k : Nat} (pos : 0 < den) (below : (k : ℚ) - 1 / 2 ≤ (num : ℚ) / den)
    (above : (num : ℚ) / den ≤ k + 1 / 2)
    (odd : k % 2 ≠ 0 → (k : ℚ) - 1 / 2 < (num : ℚ) / den ∧ (num : ℚ) / den < k + 1 / 2) :
    roundHalfEven num den = k := by
  have den_pos : (0 : ℚ) < den := by positivity
  rw [le_div_iff₀ den_pos] at below
  rw [div_le_iff₀ den_pos] at above
  rw [lt_div_iff₀ den_pos, div_lt_iff₀ den_pos] at odd
  have below : 2 * (k * den : ℚ) ≤ 2 * num + den := by linarith
  have above : 2 * (num : ℚ) ≤ 2 * (k * den) + den := by linarith
  by_cases even : k % 2 = 0
  · exact roundHalfEven_tie pos even (by exact_mod_cast above) (by exact_mod_cast below)
  · obtain ⟨low, high⟩ := odd even
    have low : 2 * (k * den : ℚ) < 2 * num + den := by linarith
    have high : 2 * (num : ℚ) < 2 * (k * den) + den := by linarith
    exact roundHalfEven_eq (by exact_mod_cast high) (by exact_mod_cast low)

end Binary64

namespace Reach

open Binary64

theorem quarter_of (significand : Nat) (e : Int) :
    0 < (Reach.of significand e).quarter.2 ∧
      ((Reach.of significand e).quarter.1 : ℚ) / (Reach.of significand e).quarter.2 =
        2 ^ e / 4 := by
  obtain ⟨pos, quotient⟩ := ratio_ratio 1 (e - 2)
  refine ⟨pos, quotient.trans ?_⟩
  rw [Nat.cast_one, one_mul, zpow_sub₀ (by norm_num)]
  norm_num

/-- the rational numbers of an interval -/
def Contains (r : Reach) (v : ℚ) : Prop :=
  let quarter := (r.quarter.1 : ℚ) / r.quarter.2
  let low := (r.centre - r.below : Nat) * quarter
  let high := (r.centre + r.above : Nat) * quarter
  if r.closed then low ≤ v ∧ v ≤ high else low < v ∧ v < high

theorem holds_iff {r : Reach} {units scale : Nat} (pos : 0 < r.quarter.2) (scale_pos : 0 < scale) :
    r.holds units scale = true ↔ r.Contains ((units : ℚ) / scale) := by
  have scale_pos : (0 : ℚ) < scale := by positivity
  have den_pos : (0 : ℚ) < r.quarter.2 := by positivity
  simp only [holds, Contains, ← mul_div_assoc, div_le_div_iff₀ den_pos scale_pos,
    div_le_div_iff₀ scale_pos den_pos, div_lt_div_iff₀ den_pos scale_pos,
    div_lt_div_iff₀ scale_pos den_pos]
  split
  · simp only [Bool.and_eq_true, decide_eq_true_eq]
    norm_cast
  · simp only [Bool.and_eq_true, decide_eq_true_eq]
    norm_cast

theorem contains_iff {significand : Nat} {e : Int} {v : ℚ} (some_digit : significand ≠ 0) :
    (Reach.of significand e).Contains v ↔
      let below : ℚ := if significand = leastFull ∧ minExponent < e then 1 / 4 else 1 / 2
      let low := (significand - below) * 2 ^ e
      let high := ((significand : ℚ) + 1 / 2) * 2 ^ e
      if significand % 2 = 0 then low ≤ v ∧ v ≤ high else low < v ∧ v < high := by
  obtain ⟨pos, quotient⟩ := quarter_of significand e
  obtain ⟨below, below_eq, at_most, below_cast⟩ : ∃ b, (Reach.of significand e).below = b ∧ b ≤ 2 ∧
      (if significand = leastFull ∧ minExponent < e then 1 / 4 else 1 / 2) = (b : ℚ) / 4 := by
    refine ⟨_, rfl, ?_⟩
    unfold Reach.of
    dsimp only
    split
    · exact ⟨by decide, by norm_num⟩
    · exact ⟨by decide, by norm_num⟩
  have low : ((4 * significand - below : Nat) : ℚ) * (2 ^ e / 4) =
      ((significand : ℚ) - below / 4) * 2 ^ e := by
    rw [Nat.cast_sub (by omega)]
    push_cast
    ring
  have high : ((4 * significand + 2 : Nat) : ℚ) * (2 ^ e / 4) =
      ((significand : ℚ) + 1 / 2) * 2 ^ e := by
    push_cast
    ring
  unfold Contains
  rw [quotient, below_eq, show (Reach.of significand e).centre = 4 * significand from rfl,
    show (Reach.of significand e).above = 2 from rfl,
    show (Reach.of significand e).closed = decide (significand % 2 = 0) from rfl]
  dsimp only
  rw [low, high, below_cast]
  simp only [decide_eq_true_eq]

/-- where the quotients lie that round to a number: half of its last place on both sides, or a
quarter below the least significand of 53 digits -/
structure Near (significand : Nat) (e : Int) (v : ℚ) : Prop where
  below : ((significand : ℚ) - 1 / 2) * 2 ^ e ≤ v
  above : v ≤ ((significand : ℚ) + 1 / 2) * 2 ^ e
  odd : significand % 2 ≠ 0 →
    ((significand : ℚ) - 1 / 2) * 2 ^ e < v ∧ v < ((significand : ℚ) + 1 / 2) * 2 ^ e
  edge : significand = leastFull → minExponent < e → ((significand : ℚ) - 1 / 4) * 2 ^ e ≤ v

theorem near_of_contains {significand : Nat} {e : Int} {v : ℚ} (some_digit : significand ≠ 0)
    (h : (Reach.of significand e).Contains v) : Near significand e v := by
  have unit : (0 : ℚ) < 2 ^ e := by positivity
  rw [contains_iff some_digit] at h
  dsimp only at h
  have half : ((significand : ℚ) - 1 / 2) * 2 ^ e ≤ (significand -
      (if significand = leastFull ∧ minExponent < e then 1 / 4 else 1 / 2)) * 2 ^ e := by
    refine mul_le_mul_of_nonneg_right ?_ unit.le
    split <;> linarith
  split at h
  · rename_i even
    obtain ⟨above, under⟩ := h
    refine ⟨half.trans above, under, fun odd => absurd even odd, fun full more => ?_⟩
    rw [if_pos ⟨full, more⟩] at above
    exact above
  · obtain ⟨above, under⟩ := h
    refine ⟨(half.trans_lt above).le, under.le, fun _ => ⟨half.trans_lt above, under⟩, ?_⟩
    intro full more
    rw [if_pos ⟨full, more⟩] at above
    exact above.le

theorem contains_of_near {significand : Nat} {e : Int} {v : ℚ} (some_digit : significand ≠ 0)
    (above : ((significand : ℚ) - 1 / 8) * 2 ^ e ≤ v)
    (under : v ≤ ((significand : ℚ) + 1 / 8) * 2 ^ e) :
    (Reach.of significand e).Contains v := by
  have unit : (0 : ℚ) < 2 ^ e := by positivity
  rw [contains_iff some_digit]
  dsimp only
  have low : ((significand : ℚ) -
      (if significand = leastFull ∧ minExponent < e then 1 / 4 else 1 / 2)) * 2 ^ e < v := by
    refine (mul_lt_mul_of_pos_right ?_ unit).trans_le above
    split <;> linarith
  have high : v < ((significand : ℚ) + 1 / 2) * 2 ^ e :=
    under.trans_lt (mul_lt_mul_of_pos_right (by linarith) unit)
  split
  · exact ⟨low.le, high.le⟩
  · exact ⟨low, high⟩

end Reach

namespace Binary64

variable {significand units scale : Nat} {e : Int}

theorem ofRatio_of_near (negative : Bool)
    (standard : (finite negative significand e).IsStandard) (not_zero : units ≠ 0)
    (scale_pos : 0 < scale) (near : Reach.Near significand e ((units : ℚ) / scale))
    (exponent : exponentFor units scale = e) :
    ofRatio negative units scale = finite negative significand e := by
  obtain ⟨below, above, odd, -⟩ := near
  obtain ⟨digits, least, most, short⟩ := standard
  have unit : (0 : ℚ) < 2 ^ e := by positivity
  obtain ⟨pos, quotient⟩ := scaled_ratio units scale_pos e
  have rounded : roundHalfEven (scaled units scale e).1 (scaled units scale e).2 =
      significand := by
    rw [← le_div_iff₀ unit, ← quotient] at below
    rw [← div_le_iff₀ unit, ← quotient] at above
    rw [← lt_div_iff₀ unit, ← div_lt_iff₀ unit, ← quotient] at odd
    exact roundHalfEven_of_near pos below above odd
  rw [ofRatio_eq negative not_zero]
  dsimp only
  rw [exponent, rounded, if_neg (by omega), if_neg (by omega), if_neg (by omega)]

/-- just below the least significand of 53 digits a quotient has one binary digit more, and rounds
up to it -/
theorem ofRatio_below_full (negative : Bool) (not_zero : units ≠ 0) (scale_pos : 0 < scale)
    (more : minExponent < e) (most : e ≤ maxExponent)
    (near : ((leastFull : ℚ) - 1 / 4) * 2 ^ e ≤ (units : ℚ) / scale)
    (lt : (units : ℚ) / scale < leastFull * 2 ^ e) :
    ofRatio negative units scale = finite negative leastFull e := by
  have double := pow_succ_int (e - 1)
  rw [Int.sub_add_cancel] at double
  have half_unit : (0 : ℚ) < 2 ^ (e - 1) := by positivity
  have some_full : (1 : ℚ) ≤ leastFull := by norm_num [leastFull]
  rw [double] at near lt
  obtain ⟨pos, quotient⟩ := scaled_ratio units scale_pos (e - 1)
  have rounded : roundHalfEven (scaled units scale (e - 1)).1 (scaled units scale (e - 1)).2 =
      2 * leastFull := by
    refine roundHalfEven_of_near pos ?_ ?_ fun odd => absurd (by decide) odd
    · rw [quotient, le_div_iff₀ half_unit]
      push_cast
      linarith
    · rw [quotient, div_le_iff₀ half_unit]
      push_cast
      nlinarith
  rw [ofRatio_eq negative not_zero]
  dsimp only
  rw [exponentFor_eq (e := e - 1) not_zero scale_pos (by omega) (by linarith)
    (fun _ => by nlinarith)]
  rw [rounded, if_pos rfl, if_pos rfl, Int.sub_add_cancel, if_neg (by omega)]

theorem ofRatio_of_contains (negative : Bool)
    (standard : (finite negative significand e).IsStandard) (some_digit : significand ≠ 0)
    (scale_pos : 0 < scale) (h : (Reach.of significand e).Contains ((units : ℚ) / scale)) :
    ofRatio negative units scale = finite negative significand e := by
  have near := Reach.near_of_contains some_digit h
  obtain ⟨digits, least, most, short⟩ := standard
  have unit : (0 : ℚ) < 2 ^ e := by positivity
  have one_le : (1 : ℚ) ≤ significand := by exact_mod_cast Nat.one_le_iff_ne_zero.2 some_digit
  have digits_le : (significand : ℚ) + 1 ≤ 2 * leastFull := by exact_mod_cast digits
  have not_zero : units ≠ 0 := by
    rintro rfl
    have below := near.below
    rw [Nat.cast_zero, zero_div] at below
    have : 0 < ((significand : ℚ) - 1 / 2) * 2 ^ e := mul_pos (by linarith) unit
    linarith
  have under : (units : ℚ) / scale < 2 * leastFull * 2 ^ e := by
    refine near.above.trans_lt ?_
    gcongr
    linarith
  by_cases inside : minExponent < e → leastFull * 2 ^ e ≤ (units : ℚ) / scale
  · exact ofRatio_of_near negative ⟨digits, least, most, short⟩ not_zero scale_pos near
      (exponentFor_eq not_zero scale_pos least under inside)
  · obtain ⟨more, lt⟩ := Classical.not_imp.1 inside
    rw [not_le] at lt
    -- the half of a last place does not reach down to the next exponent from any other significand
    have full : significand = leastFull := by
      refine le_antisymm ?_ ?_
      · by_contra next
        have : (leastFull : ℚ) + 1 ≤ significand := by exact_mod_cast not_le.1 next
        have : (leastFull : ℚ) * 2 ^ e ≤ (significand - 1 / 2) * 2 ^ e := by
          gcongr
          linarith
        linarith [near.below]
      · by_contra less
        have := short (not_le.1 less)
        omega
    subst full
    exact ofRatio_below_full negative not_zero scale_pos more most (near.edge rfl more) lt

end Binary64

end Billfold
