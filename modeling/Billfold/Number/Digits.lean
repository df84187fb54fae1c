/-!
# Decimal digits of a natural number

* `numeral`      the number in decimal digits, no zero in front
* `padded`       the number in digits of a base, filled up with zeros in front
* `ofNumeral`    the number that decimal digits write
* `digitCount`   how many decimal digits a number has; it is found by comparing with powers of ten,
                 so numbers of very many digits cost no division
-/

namespace Billfold

-- powers of natural numbers are those of the core library, whatever is imported beside this module
attribute [local instance (2000)] instPowNat

def numeral (n : Nat) : List Char := Nat.toDigits 10 n

/-- the number in digits of `base`, at least `width` of them -/
def padded (base width n : Nat) : List Char :=
  let digits := Nat.toDigits base n
  List.replicate (width - digits.length) '0' ++ digits

def ofNumeral (digits : List Char) : Nat := Nat.ofDigitChars 10 digits 0

theorem ofNumeral_numeral (n : Nat) : ofNumeral (numeral n) = n := by
  simp [ofNumeral, numeral]

theorem numeral_ne_nil (n : Nat) : numeral n ≠ [] := by
  simp [numeral]

theorem isDigit_of_mem_numeral {n : Nat} {c : Char} (h : c ∈ numeral n) : c.isDigit = true :=
  Nat.isDigit_of_mem_toDigits (by decide) (by decide) h

/-! ## counting digits -/

/-- counts up from `count` to the first number of digits that holds `n` -/
def countFrom (n count : Nat) : Nat :=
  if 10 ^ (count + 1) ≤ n then countFrom n (count + 1) else count + 1
termination_by n - count
decreasing_by
  have : count + 1 < 10 ^ (count + 1) := Nat.lt_pow_self (by decide)
  omega

/-- a count from below, read off the number of binary digits -/
def countGuess (n : Nat) : Nat :=
  let guess := Nat.log2 n * 30102999566 / 100000000000
  if 10 ^ guess ≤ n then guess else 0

/-- the number of decimal digits, 1 for zero -/
def digitCount (n : Nat) : Nat := countFrom n (countGuess n)

theorem lt_pow_countFrom (n count : Nat) : n < 10 ^ countFrom n count := by
  fun_induction countFrom n count with
  | case1 _ _ ih => exact ih
  | case2 _ h => omega

theorem pow_countFrom_le {n count : Nat} (h : 10 ^ count ≤ n) :
    10 ^ (countFrom n count - 1) ≤ n := by
  fun_induction countFrom n count with
  | case1 _ h' ih => exact ih h'
  | case2 => exact h

/-- a number is below the power of ten of its digit count -/
theorem lt_pow_digitCount (n : Nat) : n < 10 ^ digitCount n := lt_pow_countFrom n _

/-- and not below the power before, unless it is zero -/
theorem pow_digitCount_le {n : Nat} (h : n ≠ 0) : 10 ^ (digitCount n - 1) ≤ n := by
  refine pow_countFrom_le ?_
  simp only [countGuess]
  split
  · assumption
  · rw [Nat.pow_zero]; omega

end Billfold
