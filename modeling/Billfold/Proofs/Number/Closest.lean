import Billfold.Proofs.Number.Nearest

/-!
# No other number is closer

Rounding gives the closest whole number, and the closest binary number.  What is no further away
from a whole number than what was rounded to it is rounded to it as well.

* `roundHalfEven_closest`     no whole number is closer to a quotient
* `roundHalfEven_of_closer`   what is no further away is rounded to the same whole number
* `Binary64.ofRatio_isFinite` a quotient that is not too large has a binary number
* `Binary64.ofRatio_closest`  no standard number is closer to it
-/

namespace Billfold

-- powers of natural numbers are those of the core library, whatever is imported beside this module
attribute [local instance (2000)] instPowNat

variable {num den : Nat}

/-! ## whole numbers -/

theorem roundHalfEven_closest (num : Nat) (pos : 0 < den) (k : Int) :
    |(roundHalfEven num den : ℚ) - num / den| ≤ |(k : ℚ) - num / den| := by
  obtain ⟨above, below⟩ := Binary64.roundHalfEven_within num pos
  have half : |(roundHalfEven num den : ℚ) - num / den| ≤ 1 / 2 :=
    abs_le.2 ⟨by linarith, by linarith⟩
  by_cases same : k = roundHalfEven num den
  · rw [same, Int.cast_natCast]
  · have one : (1 : ℚ) ≤ |(k : ℚ) - roundHalfEven num den| := by
      have : 1 ≤ |k - roundHalfEven num den| := Int.one_le_abs (by omega)
      exact_mod_cast this
    have way := abs_sub_le (k : ℚ) (num / den) (roundHalfEven num den)
    rw [abs_sub_comm (num / den : ℚ)] at way
    linarith

theorem lt_half_of_odd (pos : 0 < den) (odd : roundHalfEven num den % 2 ≠ 0) :
    |(num : ℚ) / den - roundHalfEven num den| < 1 / 2 := by
  obtain ⟨below, above⟩ := roundHalfEven_odd pos odd
  have den_pos : (0 : ℚ) < den := by positivity
  have below : 2 * ((roundHalfEven num den : ℚ) * den) < 2 * num + den := by exact_mod_cast below
  have above : 2 * (num : ℚ) < 2 * (roundHalfEven num den * den) + den := by exact_mod_cast above
  rw [abs_lt, lt_sub_iff_add_lt, lt_div_iff₀ den_pos, sub_lt_iff_lt_add, div_lt_iff₀ den_pos]
  constructor <;> linarith

theorem roundHalfEven_of_closer {num' den' : Nat} (pos : 0 < den) (pos' : 0 < den')
    (closer : |(num' : ℚ) / den' - roundHalfEven num den| ≤
      |(num : ℚ) / den - roundHalfEven num den|) :
    roundHalfEven num' den' = roundHalfEven num den := by
  obtain ⟨low, high⟩ := Binary64.roundHalfEven_within num pos
  have half : |(num : ℚ) / den - roundHalfEven num den| ≤ 1 / 2 :=
    abs_le.2 ⟨by linarith, by linarith⟩
  obtain ⟨below, above⟩ := abs_le.1 (closer.trans half)
  refine Binary64.roundHalfEven_of_near pos' (by linarith) (by linarith) fun odd => ?_
  obtain ⟨below, above⟩ := abs_lt.1 (closer.trans_lt (lt_half_of_odd pos odd))
  exact ⟨by linarith, by linarith⟩

/-! ## binary numbers -/

namespace Binary64

variable {negative sign : Bool} {significand m : Nat} {e f : Int}

theorem exponentFor_lt (hn : num ≠ 0) (hd : 0 < den) (more : minExponent < e)
    (small : (num : ℚ) / den < leastFull * 2 ^ e) : exponentFor num den < e := by
  obtain ⟨-, -, full⟩ := exponentFor_spec hn hd
  by_contra large
  have some_full : (0 : ℚ) < leastFull := by norm_num [leastFull]
  have grown : (2 : ℚ) ^ e ≤ 2 ^ exponentFor num den :=
    zpow_le_zpow_right₀ (by norm_num) (not_lt.1 large)
  have := mul_le_mul_of_nonneg_left grown some_full.le
  linarith [full (by omega)]

/-- the binary number of a quotient, before it is cut to 53 digits -/
theorem ofRatio_value (hn : num ≠ 0)
    (h : ofRatio negative num den = .finite sign significand e) :
    sign = negative ∧ (significand * 2 ^ e : ℚ) =
      roundHalfEven (scaled num den (exponentFor num den)).1
        (scaled num den (exponentFor num den)).2 * 2 ^ exponentFor num den := by
  rw [ofRatio_eq negative hn] at h
  dsimp only at h
  generalize roundHalfEven _ _ = r at h ⊢
  by_cases carried : r = 2 * leastFull
  · simp only [if_pos carried] at h
    split at h
    · cases h
    · cases h
      refine ⟨rfl, ?_⟩
      rw [carried, pow_succ_int]
      push_cast
      ring
  · simp only [if_neg carried] at h
    split at h
    · cases h
    · cases h
      exact ⟨rfl, rfl⟩

theorem ofRatio_isFinite (negative : Bool) (hn : num ≠ 0) (hd : 0 < den)
    (small : (num : ℚ) / den < leastFull * 2 ^ maxExponent) :
    ∃ significand e, ofRatio negative num den = .finite negative significand e := by
  have below := exponentFor_lt hn hd (by decide) small
  rw [ofRatio_eq negative hn]
  dsimp only
  rw [if_neg (by split <;> omega)]
  exact ⟨_, _, rfl⟩

/-- **No standard number is closer to a quotient than the one that it is rounded to.** -/
theorem ofRatio_closest {other : Bool} (hn : num ≠ 0) (hd : 0 < den)
    (h : ofRatio negative num den = .finite sign significand e)
    (standard : (finite other m f).IsStandard) :
    |(significand * 2 ^ e : ℚ) - num / den| ≤ |(m * 2 ^ f : ℚ) - num / den| := by
  obtain ⟨least, -, full⟩ := exponentFor_spec hn hd
  obtain ⟨pos, quotient⟩ := scaled_ratio num hd (exponentFor num den)
  rw [(ofRatio_value hn h).2]
  generalize exponentFor num den = g at *
  have unit : (0 : ℚ) < 2 ^ g := by positivity
  have value : (num : ℚ) / den = (scaled num den g).1 / (scaled num den g).2 * 2 ^ g := by
    rw [quotient, div_mul_cancel₀ _ unit.ne']
  -- whole numbers of the last place are no closer
  have grid (k : Nat) :
      |(roundHalfEven (scaled num den g).1 (scaled num den g).2 * 2 ^ g : ℚ) - num / den| ≤
        |(k * 2 ^ g : ℚ) - num / den| := by
    rw [value, ← sub_mul, ← sub_mul, abs_mul, abs_mul]
    exact mul_le_mul_of_nonneg_right (roundHalfEven_closest _ pos k) (abs_nonneg _)
  by_cases coarse : g ≤ f
  · obtain ⟨p, rfl⟩ : ∃ p : Nat, f = p + g := ⟨(f - g).toNat, by omega⟩
    have := grid (m * 2 ^ p)
    rw [zpow_add₀ (by norm_num), zpow_natCast, ← mul_assoc]
    exact_mod_cast this
  · -- a finer number is below the least full one, which is a whole number of the last place
    obtain ⟨digits, low, -, -⟩ := standard
    have digits : (m : ℚ) ≤ 2 * leastFull := by exact_mod_cast digits.le
    have below : (m * 2 ^ f : ℚ) ≤ leastFull * 2 ^ g :=
      (mul_le_mul_of_nonneg_right digits (by positivity)).trans (full_le (by omega))
    have above := full (by omega)
    refine (grid leastFull).trans ?_
    rw [abs_sub_comm, abs_sub_comm (m * 2 ^ f : ℚ), abs_of_nonneg (by linarith),
      abs_of_nonneg (by linarith)]
    linarith

end Binary64

end Billfold
