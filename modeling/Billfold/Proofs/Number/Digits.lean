import Billfold.Number.Digits

/-!
# Decimal digits

* `numeral_inj`          different numbers have different digits
* `digitCount_le`        a number below a power of ten has no more digits than that
* `lt_pow_of_digitCount` and one of so many digits is below it
* `ofNumeral_append`     the number of two texts of digits, one behind the other
* `ofNumeral_lt`         digits write a number below the power of ten of their count
-/

namespace Billfold

-- powers of natural numbers are those of the core library, whatever is imported beside this module
attribute [local instance (2000)] instPowNat

theorem numeral_inj {m n : Nat} (h : numeral m = numeral n) : m = n := by
  rw [← ofNumeral_numeral m, h, ofNumeral_numeral]

theorem digitCount_zero : digitCount 0 = 1 := by decide +kernel

theorem digitCount_pos (n : Nat) : 1 ≤ digitCount n := by
  rcases Nat.eq_zero_or_pos (digitCount n) with none | pos
  · have lt := lt_pow_digitCount n
    rw [none, Nat.pow_zero, Nat.lt_one_iff] at lt
    rw [lt, digitCount_zero] at none
    cases none
  · exact pos

theorem digitCount_le {n k : Nat} (pos : 0 < k) (h : n < 10 ^ k) : digitCount n ≤ k := by
  by_cases zero : n = 0
  · rw [zero, digitCount_zero]
    exact pos
  · have lt : 10 ^ (digitCount n - 1) < 10 ^ k := Nat.lt_of_le_of_lt (pow_digitCount_le zero) h
    have := (Nat.pow_lt_pow_iff_right (by decide)).1 lt
    omega

theorem lt_pow_of_digitCount {n k : Nat} (h : digitCount n ≤ k) : n < 10 ^ k :=
  Nat.lt_of_lt_of_le (lt_pow_digitCount n) (Nat.pow_le_pow_right (by decide) h)

/-! ## texts of digits -/

theorem numeral_head {n : Nat} (h : (numeral n).head? = some '0') : n = 0 := by
  unfold numeral at h
  induction n using Nat.strongRecOn with
  | ind n ih =>
    rw [Nat.toDigits_eq_if (by decide)] at h
    split at h
    · have small : ∀ k < 10, Nat.digitChar k = '0' → k = 0 := by decide
      exact small n ‹_› (Option.some.inj h)
    · rw [List.head?_append] at h
      cases front : (Nat.toDigits 10 (n / 10)).head? with
      | none => exact absurd (List.head?_eq_none_iff.1 front) Nat.toDigits_ne_nil
      | some c =>
        rw [front, Option.some_or] at h
        have := ih (n / 10) (by omega) (front.trans h)
        omega

theorem ofNumeral_append (front back : List Char) :
    ofNumeral (front ++ back) = 10 ^ back.length * ofNumeral front + ofNumeral back := by
  unfold ofNumeral
  rw [Nat.ofDigitChars_append, Nat.ofDigitChars_eq_ofDigitChars_zero]

theorem ofNumeral_zeros (n : Nat) : ofNumeral (List.replicate n '0') = 0 := by
  unfold ofNumeral
  rw [Nat.ofDigitChars_replicate_zero, Nat.mul_zero]

theorem ofNumeral_padded (width n : Nat) : ofNumeral (padded 10 width n) = n := by
  unfold padded
  dsimp only
  rw [ofNumeral_append, ofNumeral_zeros, Nat.mul_zero, Nat.zero_add]
  exact ofNumeral_numeral n

theorem ofNumeral_lt {digits : List Char} (h : ∀ c ∈ digits, c.isDigit = true) :
    ofNumeral digits < 10 ^ digits.length := by
  induction digits with
  | nil => decide
  | cons c cs ih =>
    have tail := ih fun c' hc' => h c' (List.mem_cons_of_mem _ hc')
    have head : ofNumeral [c] < 10 := by
      have digit := h c List.mem_cons_self
      simp only [Char.isDigit, ge_iff_le, Bool.and_eq_true, decide_eq_true_eq] at digit
      have le : c.toNat ≤ 57 := digit.2
      show 10 * 0 + (c.toNat - '0'.toNat) < 10
      have : '0'.toNat = 48 := rfl
      omega
    rw [← List.singleton_append, ofNumeral_append, List.length_append, List.length_singleton,
      Nat.pow_add, Nat.pow_one]
    have := Nat.mul_le_mul_left (10 ^ cs.length) (Nat.le_of_lt_succ head)
    omega

end Billfold
