import Billfold.Plan.Basic
import Billfold.Proofs.Decimal.Value
import Billfold.Proofs.Except

/-!
# How an amount is cut

The working precision comes in at three places where an amount is cut: its magnitude is brought into
it, the hundredfold of that is exact again, and the cents of a part lose the digits behind the 28th.

* `kept`                 a whole number without the digits that the working precision loses
* `wholeCents_eq`        the cents of an amount, from its magnitude in the working precision
* `value_centAmount`     what a number of cents is worth as an amount
* `values_of_divide`     what the parts of an amount are worth
* `wholeCents_isOk`, `centAmount_isOk`   neither fails if the amount is not too large
-/

namespace Billfold

-- powers of natural numbers are those of the core library, whatever is imported beside this module
attribute [local instance (2000)] instPowNat

open Decimal

def kept (k : Nat) : Nat := dropDigits k (digitCount k - 28) * 10 ^ (digitCount k - 28)

variable {negative : Bool} {k m n : Nat} {e : Int} {c : Int} {count : Nat} {x y r : Decimal}

theorem kept_of_few (few : digitCount k ≤ 28) : kept k = k := by
  have none : digitCount k - 28 = 0 := by omega
  unfold kept
  rw [none]
  exact dropDigits_of_dvd (Nat.one_dvd k)

/-! ## the cents of an amount -/

/-- a hundredfold may have two digits more than fit, but these two are zeros -/
theorem zeros_of_hundred (few : digitCount n ≤ 28) :
    10 ^ (digitCount (n * 100) - 28) ∣ n * 100 := by
  have hundred : digitCount (n * 100) ≤ 30 := by
    refine digitCount_le (by decide) ?_
    have := lt_pow_of_digitCount few
    omega
  have : 10 ^ (digitCount (n * 100) - 28) ∣ 10 ^ 2 := Nat.pow_dvd_pow 10 (by omega)
  exact Nat.dvd_mul_left_of_dvd this n

/-- **The cents of an amount are those of its magnitude in the working precision**, and nothing else
is lost. -/
theorem wholeCents_eq (number : x.isFinite) (magnitude : x.abs = .ok r)
    (h : wholeCents x = .ok c) : c = (⌊100 * r.value⌋₊ : Nat) := by
  obtain ⟨negative, m, e, rfl⟩ := exists_of_isFinite number
  obtain ⟨r', magnitude', h⟩ := Except.bind_eq_ok.1 h
  cases magnitude.symm.trans magnitude'
  obtain ⟨s, scaled, h⟩ := Except.bind_eq_ok.1 h
  obtain ⟨n, f, rfl, held, -⟩ := fit_eq magnitude
  obtain ⟨k, g, rfl, -, worth⟩ := fit_worth scaled (zeros_of_hundred held.few)
    (.inl (by have := held.low; omega))
  have whole : Except.ok (wholePart k g : Int) = Except.ok (ε := Fault) c := h
  have hundred : (k * 10 ^ g : ℚ) = 100 * (finite false n f).value := by
    rw [worth, value_plain, Int.add_zero]
    push_cast
    ring
  rw [← Except.ok.inj whole, wholePart_eq_floor, hundred]

theorem wholeCents_isOk (number : x.isFinite) (small : |x.value| < 10 ^ (999996 : Int)) :
    ∃ r c, x.abs = .ok r ∧ r.value ≤ 2 * |x.value| ∧ wholeCents x = .ok c := by
  obtain ⟨negative, m, e, rfl⟩ := exists_of_isFinite number
  generalize limit_eq : (10 : ℚ) ^ (999996 : Int) = limit at small
  have worth := worth_nonneg m e
  rw [abs_value] at small ⊢
  obtain ⟨r, magnitude⟩ := fit_isOk false (m := m) (e := e) (lt_limit (by
    rw [limit_eq]
    linarith only [small, worth]))
  have double := fit_le magnitude
  obtain ⟨n, f, rfl, held, -⟩ := fit_eq magnitude
  rw [abs_value] at double
  obtain ⟨s, scaled⟩ := fit_isOk (false != false) (m := n * 100) (e := f + 0) (lt_limit (by
    rw [Nat.cast_mul, Nat.cast_ofNat, Int.add_zero, limit_eq]
    linarith only [small, worth, double]))
  obtain ⟨k, g, rfl, -⟩ := fit_eq scaled
  exact ⟨_, _, magnitude, (value_plain n f).le.trans double,
    Except.bind_eq_ok.2 ⟨_, magnitude, Except.bind_eq_ok.2 ⟨_, scaled, rfl⟩⟩⟩

/-- **No whole cent is lost of a number in the working precision.** -/
theorem wholeCents_of_precise (precise : x.Precise) (small : |x.value| < 10 ^ (999996 : Int)) :
    wholeCents x = .ok (⌊100 * |x.value|⌋₊ : Nat) := by
  obtain ⟨r, c, magnitude, double, cents⟩ := wholeCents_isOk precise.isFinite small
  rw [cents, wholeCents_eq precise.isFinite magnitude cents]
  by_cases tiny : 200 * |x.value| < 1
  · -- what is far below a cent may lose digits, and it has no whole cent before and after
    have none : ⌊100 * r.value⌋₊ = 0 := Nat.floor_eq_zero.2 (by linarith)
    have none' : ⌊100 * |x.value|⌋₊ = 0 := Nat.floor_eq_zero.2 (by linarith [abs_nonneg x.value])
    rw [none, none']
  · rw [value_abs_of_precise precise (by linarith) magnitude]

/-! ## the amount of some cents -/

theorem lastPlace_cents (k : Nat) : lastPlace k (-2) = (digitCount k - 28 : Nat) + -2 := by
  unfold lastPlace
  split <;> omega

/-- **Cents are worth as much as an amount**, but for the digits that the working precision
loses. -/
theorem value_centAmount (h : centAmount negative k = .ok y) :
    y.value = side negative * (kept k / 100) := by
  obtain ⟨s, plain, h⟩ := Except.bind_eq_ok.1 h
  have plain : fit false (k * 1) (0 + -2) = .ok s := plain
  rw [Nat.mul_one, Int.zero_add] at plain
  obtain ⟨n, f, rfl, held, worth⟩ := fit_eq plain
  have signed : fit (false != negative) (n * 1) (f + 0) = .ok y := h
  have none : digitCount n - 28 = 0 := by have := held.few; omega
  rw [Nat.mul_one, Int.add_zero, Bool.false_bne] at signed
  obtain ⟨n', f', rfl, -, same⟩ := fit_worth signed (by rw [none]; exact Nat.one_dvd n)
    (.inl held.low)
  have cents : (n * 10 ^ f : ℚ) = kept k / 100 := by
    rw [worth, lastPlace_cents, Int.add_sub_cancel, Int.toNat_natCast, zpow_add₀ (by norm_num),
      zpow_natCast]
    unfold kept
    push_cast
    norm_num
    ring
  unfold value
  dsimp only
  rw [same, cents]

theorem centAmount_isOk (negative : Bool) (small : (k : ℚ) < 1000 * 10 ^ (999996 : Int)) :
    ∃ y, centAmount negative k = .ok y := by
  generalize limit_eq : (10 : ℚ) ^ (999996 : Int) = limit at small
  have cents : (k * 10 ^ (-2 : Int) : ℚ) = k / 100 := by
    norm_num
    ring
  have positive : (0 : ℚ) ≤ k := Nat.cast_nonneg k
  obtain ⟨s, plain⟩ := fit_isOk false (m := k) (e := -2) (lt_limit (by
    rw [cents, limit_eq]
    linarith))
  have double := fit_le plain
  obtain ⟨n, f, rfl, -⟩ := fit_eq plain
  rw [abs_value, cents] at double
  obtain ⟨y, signed⟩ := fit_isOk (false != negative) (m := n) (e := f) (lt_limit (by
    rw [limit_eq]
    linarith))
  refine ⟨y, Except.bind_eq_ok.2 ⟨finite false n f, ?_, ?_⟩⟩
  · show fit false (k * 1) (0 + -2) = _
    rw [Nat.mul_one, Int.zero_add, plain]
  · show fit (false != negative) (n * 1) (f + 0) = _
    rw [Nat.mul_one, Int.add_zero, signed]

/-! ## the parts -/

theorem values_of_divide {parts : List Decimal} (number : x.isFinite) (magnitude : x.abs = .ok r)
    (h : divide x count = .ok parts) :
    ∃ negative, x.isNegative = .ok negative ∧ parts.map value =
      (centParts ⌊100 * r.value⌋₊ count).map fun k =>
        side negative * (kept k / 100) := by
  obtain ⟨negative, side, h⟩ := Except.bind_eq_ok.1 h
  obtain ⟨c, cents, h⟩ := Except.bind_eq_ok.1 h
  refine ⟨negative, side, ?_⟩
  rw [wholeCents_eq number magnitude cents] at h
  split at h
  · cases h
  · exact Except.map_of_mapM h fun k _ y made => value_centAmount made

end Billfold
