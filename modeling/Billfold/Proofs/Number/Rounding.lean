import Billfold.Number.Rounding

/-!
# Rounding is to the nearest

* `roundHalfEven_near`   rounding is off by half a unit at most
* `roundHalfEven_odd`    by less if it gives an odd number
* `roundHalfEven_eq`     a quotient less than half a unit away is rounded there
* `roundHalfEven_tie`    and so is one just half a unit away, if the whole number is even
-/

namespace Billfold

variable {num den k : Nat}

theorem roundHalfEven_near (num : Nat) (h : 0 < den) :
    2 * (roundHalfEven num den * den) ≤ 2 * num + den ∧
      2 * num ≤ 2 * (roundHalfEven num den * den) + den := by
  have parts := Nat.div_add_mod num den
  have rest := Nat.mod_lt num h
  have down : num / den * den = den * (num / den) := Nat.mul_comm _ _
  have up : (num / den + 1) * den = den * (num / den) + den := by
    rw [Nat.add_mul, Nat.one_mul, Nat.mul_comm]
  unfold roundHalfEven
  dsimp only
  split
  · rw [down]
    omega
  · split
    · rw [up]
      omega
    · split
      · rw [down]
        omega
      · rw [up]
        omega

theorem roundHalfEven_odd (h : 0 < den) (odd : roundHalfEven num den % 2 ≠ 0) :
    2 * (roundHalfEven num den * den) < 2 * num + den ∧
      2 * num < 2 * (roundHalfEven num den * den) + den := by
  have parts := Nat.div_add_mod num den
  have rest := Nat.mod_lt num h
  have down : num / den * den = den * (num / den) := Nat.mul_comm _ _
  have up : (num / den + 1) * den = den * (num / den) + den := by
    rw [Nat.add_mul, Nat.one_mul, Nat.mul_comm]
  unfold roundHalfEven at odd ⊢
  dsimp only at odd ⊢
  split at odd
  · next below =>
    rw [if_pos below, down]
    omega
  · next most =>
    rw [if_neg most]
    split at odd
    · next above =>
      rw [if_pos above, up]
      omega
    · -- a half is rounded to the even one of two numbers
      split at odd
      · omega
      · omega

theorem roundHalfEven_eq (below : 2 * num < 2 * (k * den) + den)
    (above : 2 * (k * den) < 2 * num + den) : roundHalfEven num den = k := by
  have pos : 0 < den := by omega
  obtain ⟨le, ge⟩ := roundHalfEven_near num pos
  generalize roundHalfEven num den = r at le ge
  -- the two are less than one denominator apart
  rcases Nat.lt_trichotomy r k with lt | eq | gt
  · have := Nat.mul_le_mul_right den (Nat.succ_le_of_lt lt)
    rw [Nat.succ_mul] at this
    omega
  · exact eq
  · have := Nat.mul_le_mul_right den (Nat.succ_le_of_lt gt)
    rw [Nat.succ_mul] at this
    omega

theorem roundHalfEven_zero (h : 0 < den) : roundHalfEven 0 den = 0 :=
  roundHalfEven_eq (by omega) (by omega)

theorem roundHalfEven_half {rest : Nat} (k : Nat) (pos : 0 < den) (half : 2 * rest = den) :
    roundHalfEven (k * den + rest) den = if k % 2 = 0 then k else k + 1 := by
  have quotient : (k * den + rest) / den = k := by
    rw [Nat.add_comm, Nat.add_mul_div_right _ _ pos, Nat.div_eq_of_lt (by omega), Nat.zero_add]
  have left : (k * den + rest) % den = rest := by
    rw [Nat.add_comm, Nat.add_mul_mod_self_right, Nat.mod_eq_of_lt (by omega)]
  unfold roundHalfEven
  dsimp only
  rw [quotient, left, if_neg (by omega), if_neg (by omega)]

theorem roundHalfEven_tie (pos : 0 < den) (even : k % 2 = 0) (below : 2 * num ≤ 2 * (k * den) + den)
    (above : 2 * (k * den) ≤ 2 * num + den) : roundHalfEven num den = k := by
  rcases Nat.lt_or_eq_of_le below with below | up
  · rcases Nat.lt_or_eq_of_le above with above | down
    · exact roundHalfEven_eq below above
    · -- half a unit below `k`, which is the upper one of two neighbours there
      obtain ⟨j, rfl⟩ : ∃ j, k = j + 1 := by
        cases k with
        | zero => omega
        | succ j => exact ⟨j, rfl⟩
      have next : (j + 1) * den = j * den + den := Nat.succ_mul j den
      obtain ⟨rest, rfl⟩ : ∃ rest, num = j * den + rest := ⟨num - j * den, by omega⟩
      rw [roundHalfEven_half j pos (by omega), if_neg (by omega)]
  · obtain ⟨rest, rfl⟩ : ∃ rest, num = k * den + rest := ⟨num - k * den, by omega⟩
    rw [roundHalfEven_half k pos (by omega), if_pos even]

end Billfold
