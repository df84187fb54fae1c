import Billfold.Proofs.Book.Money
import Billfold.Proofs.Number.Closest

/-!
# What comes back from the book is kept

An amount that the book has given back once comes back unchanged when it is put there again, however
large it is.  The binary number that is nearest to it may be another one than the first, but it is
no further away, so it is given back as the same cents.

* `isStandard_stored`        the book keeps standard numbers
* `exists_standard`          what a booked amount was rounded from
* `Binary64.ofRatio_booked`  the number nearest to it is given back as the same cents
* `settle?_again`            so it comes back unchanged
-/

namespace Billfold

-- powers of natural numbers are those of the core library, whatever is imported beside this module
attribute [local instance (2000)] instPowNat

open Binary64

variable {x : Decimal} {kept : Binary64} {negative : Bool} {k m : Nat} {e : Int}

theorem isStandard_stored (h : storedAmount? x = some kept) : kept.IsStandard := by
  cases x with
  | finite negative coefficient exponent =>
    have standard := isStandard_ofDecimal negative coefficient exponent
    cases h
    split
    · next nothing =>
      rw [nothing] at standard
      exact standard
    · exact standard
  | infinite => cases h; trivial
  | nan => cases h

theorem exists_standard (h : settle? x = some (.finite negative k e)) :
    e = -2 ∧ ∃ m f, (Binary64.finite negative m f).IsStandard ∧
      roundHalfEven (100 * (ratio m f).1) (ratio m f).2 = k := by
  obtain ⟨kept, stored, booked⟩ := Option.map_eq_some_iff.1 h
  have standard := isStandard_stored stored
  cases kept with
  | finite sign m f =>
    cases booked
    exact ⟨rfl, m, f, standard, rfl⟩
  | infinite => cases booked
  | nan => cases booked

theorem hundred_ratio (m : Nat) (f : Int) :
    ((100 * (ratio m f).1 : Nat) : ℚ) / (ratio m f).2 = 100 * (m * 2 ^ f) := by
  rw [← (ratio_ratio m f).2, Nat.cast_mul, Nat.cast_ofNat, mul_div_assoc]

theorem cents_small (few : digitCount k ≤ 28) :
    (k : ℚ) / (100 : Nat) < leastFull * 2 ^ maxExponent := by
  have below : (k : ℚ) < 10 ^ 28 := by exact_mod_cast lt_pow_of_digitCount few
  have wide : (2 : ℚ) ^ (35 : Int) ≤ 2 ^ maxExponent :=
    zpow_le_zpow_right₀ (by norm_num) (by decide)
  have some_full : (0 : ℚ) ≤ leastFull := Nat.cast_nonneg _
  refine lt_of_lt_of_le ?_ (mul_le_mul_of_nonneg_left wide some_full)
  norm_num [leastFull]
  linarith

theorem ofRatio_booked {f : Int} {sign other : Bool} {n : Nat} {g : Int}
    (standard : (Binary64.finite other m f).IsStandard)
    (booked : roundHalfEven (100 * (ratio m f).1) (ratio m f).2 = k) (some : k ≠ 0)
    (h : ofRatio negative k 100 = .finite sign n g) :
    roundHalfEven (100 * (ratio n g).1) (ratio n g).2 = k := by
  have closest := ofRatio_closest some (by decide) h standard
  have cents (v : ℚ) : |100 * v - k| = 100 * |v - k / (100 : Nat)| := by
    have : 100 * v - k = 100 * (v - k / (100 : Nat)) := by
      push_cast
      ring
    rw [this, abs_mul]
    norm_num
  have closer : |((100 * (ratio n g).1 : Nat) : ℚ) / (ratio n g).2 - k| ≤
      |((100 * (ratio m f).1 : Nat) : ℚ) / (ratio m f).2 - k| := by
    rw [hundred_ratio, hundred_ratio, cents, cents]
    linarith
  rw [← booked] at closer
  exact (roundHalfEven_of_closer (ratio_ratio m f).1 (ratio_ratio n g).1 closer).trans booked

/-- **What came back from the book once comes back unchanged**, with either sign; only zero loses
it. -/
theorem settle?_again (h : settle? x = some (.finite negative k e)) (few : digitCount k ≤ 28)
    (sign : Bool) : settle? (.finite sign k (-2)) = some (.finite (sign && k != 0) k (-2)) := by
  by_cases none : k = 0
  · subst none
    exact settle?_cents (by decide) sign
  obtain ⟨-, m, f, standard, booked⟩ := exists_standard h
  obtain ⟨n, g, nearest⟩ := ofRatio_isFinite sign none (by decide) (cents_small few)
  have back := ofRatio_booked standard booked none nearest
  have stored : storedAmount? (.finite sign k (-2)) = some (.finite sign n g) := by
    unfold storedAmount?
    dsimp only
    rw [ofDecimal_cents none few, nearest]
    cases n with
    | zero =>
      -- nothing is given back as nothing
      have nothing : (ratio 0 g).1 = 0 := by
        unfold ratio
        split
        · exact Nat.zero_mul _
        · rfl
      rw [nothing, Nat.mul_zero, roundHalfEven_zero (ratio_ratio 0 g).1] at back
      exact absurd back.symm none
    | succ n => rfl
  unfold settle?
  rw [stored, Option.map_some, bne_iff_ne.2 none, Bool.and_true]
  show some (Decimal.finite sign (roundHalfEven (100 * (ratio n g).1) (ratio n g).2) (-2)) = _
  rw [back]

end Billfold
