import Billfold.Book.Money
import Billfold.Proofs.Number.Digits
import Billfold.Proofs.Number.Rounding

/-!
# Cents in the book

The binary number nearest to an amount in cents is off by far less than half a cent, so the amount
that comes back from the book is the one that was given to it.

* `Binary64.ofRatio_cents`  how far the nearest binary number is from an amount in cents
* `settle?_cents`           cents below ten trillion come back as they were given
-/

namespace Billfold

-- powers of natural numbers are those of the core library, whatever is imported beside this module
attribute [local instance (2000)] instPowNat

/-! ## the nearest binary number -/

namespace Binary64

variable {k : Nat}

theorem exponentFor_le (small : k < 10 ^ (15 : Nat)) : exponentFor k 100 ≤ -9 := by
  have bits : Nat.log2 k ≤ 49 := by
    by_cases zero : k = 0
    · rw [zero]
      decide
    · have : Nat.log2 k < 50 := (Nat.log2_lt zero).2 (Nat.lt_trans small (by decide))
      omega
  have hundred : Nat.log2 100 = 6 := by decide
  unfold exponentFor minExponent
  dsimp only
  rw [hundred]
  split <;> omega

/-- the nearest binary number is off by half a unit of its last place, which is the eighth or a
later one behind the point -/
theorem ofRatio_cents (pos : k ≠ 0) (small : k < 10 ^ (15 : Nat)) (negative : Bool) :
    ∃ significand places : Nat, 8 ≤ places ∧
      ofRatio negative k 100 = .finite negative significand (-places) ∧
      2 * (significand * 100) ≤ 2 * (k * 2 ^ places) + 100 ∧
      2 * (k * 2 ^ places) ≤ 2 * (significand * 100) + 100 := by
  have le := exponentFor_le small
  obtain ⟨p, hp⟩ : ∃ p : Nat, exponentFor k 100 = -((p + 1 : Nat) : Int) :=
    ⟨(-exponentFor k 100).toNat - 1, by omega⟩
  rw [hp] at le
  have scale : scaled k 100 (-((p + 1 : Nat) : Int)) = (k * 2 ^ (p + 1), 100) := by
    unfold scaled
    rw [if_neg (by omega), Int.neg_neg, Int.toNat_natCast]
  have hundred : 0 < 100 := by decide
  obtain ⟨near, near'⟩ := roundHalfEven_near (k * 2 ^ (p + 1)) hundred
  have exact_ : ofRatio negative k 100 =
      if roundHalfEven (k * 2 ^ (p + 1)) 100 = 2 * leastFull then
        .finite negative leastFull (-(p : Int))
      else .finite negative (roundHalfEven (k * 2 ^ (p + 1)) 100) (-((p + 1 : Nat) : Int)) := by
    unfold ofRatio maxExponent
    dsimp only
    rw [if_neg pos, hp, scale]
    dsimp only
    split
    · have last : -((p + 1 : Nat) : Int) + 1 = -(p : Int) := by omega
      rw [last, if_neg (by omega)]
    · rw [if_neg (by omega)]
  rw [exact_]
  generalize roundHalfEven (k * 2 ^ (p + 1)) 100 = r at near near'
  by_cases full : r = 2 * leastFull
  · have double : k * 2 ^ (p + 1) = 2 * (k * 2 ^ p) := by
      rw [Nat.pow_succ, Nat.mul_comm (2 ^ p), Nat.mul_left_comm]
    rw [full, double] at near near'
    refine ⟨leastFull, p, by omega, if_pos full, ?_, ?_⟩ <;> omega
  · exact ⟨r, p + 1, by omega, if_neg full, near, near'⟩

theorem ofDecimal_cents (pos : k ≠ 0) (few : digitCount k ≤ 28) (negative : Bool) :
    ofDecimal negative k (-2) = ofRatio negative k 100 := by
  unfold ofDecimal
  dsimp only
  rw [if_neg pos, if_neg (by omega), if_neg (by omega), if_neg (by decide)]
  rfl

end Binary64

/-! ## there and back -/

theorem bookedAmount_finite (negative : Bool) (significand : Nat) {places : Nat}
    (h : 0 < places) : bookedAmount (.finite negative significand (-places)) =
      .finite negative (roundHalfEven (100 * significand) (2 ^ places)) (-2) := by
  unfold bookedAmount Binary64.ratio
  dsimp only
  rw [if_neg (by omega), Int.neg_neg, Int.toNat_natCast]

/-- **Cents below ten trillion come back as they were given**; only zero loses its sign. -/
theorem settle?_cents {k : Nat} (small : k < 10 ^ (15 : Nat)) (negative : Bool) :
    settle? (.finite negative k (-2)) = some (.finite (negative && k != 0) k (-2)) := by
  by_cases zero : k = 0
  · subst zero
    have kept : storedAmount? (.finite negative 0 (-2)) = some (.finite false 0 (-(1074 : Nat))) :=
      rfl
    unfold settle?
    rw [kept, Option.map_some, bookedAmount_finite _ _ (by decide), Nat.mul_zero,
      roundHalfEven_zero (Nat.two_pow_pos 1074), Bool.and_comm]
    rfl
  · obtain ⟨significand, places, le, nearest, near, near'⟩ :=
      Binary64.ofRatio_cents zero small negative
    have wide : 2 ^ 8 ≤ 2 ^ places := Nat.pow_le_pow_right (by decide) le
    have one : 1 * 2 ^ places ≤ k * 2 ^ places := Nat.mul_le_mul_right _ (Nat.pos_of_ne_zero zero)
    have kept : storedAmount? (.finite negative k (-2)) =
        some (.finite negative significand (-places)) := by
      unfold storedAmount?
      dsimp only
      have few : digitCount k ≤ 28 :=
        Nat.le_trans (digitCount_le (by decide) small) (by decide)
      rw [Binary64.ofDecimal_cents zero few, nearest]
      cases significand with
      | zero => omega
      | succ n => rfl
    have back : roundHalfEven (100 * significand) (2 ^ places) = k :=
      roundHalfEven_eq (by omega) (by omega)
    have signed : (negative && k != 0) = negative := by simp [zero]
    unfold settle?
    rw [kept, Option.map_some, bookedAmount_finite _ _ (by omega), back, signed]

end Billfold
