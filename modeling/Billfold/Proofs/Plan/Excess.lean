import Billfold.Proofs.Plan.Divide

/-!
# When the parts exceed the amount

The fraction of a cent is dropped, so the parts should never add up to more than the amount.  They
can where the working precision rounds up: the magnitude to a whole number of cents, before its
fraction is dropped, or the cents of the parts of a huge amount, after that.

* `sum_of_divide`         the exact sum of the parts
* `floor_le_of_near`      a fraction that is dropped makes up for the rounding before
* `divided_within_iff`    when the parts add up to no more than the amount
* `divided_exceeds`       an amount that they exceed
-/

namespace Billfold

-- powers of natural numbers are those of the core library, whatever is imported beside this module
attribute [local instance (2000)] instPowNat

open Decimal

variable {x r : Decimal} {n : Nat} {parts : List Decimal}

/-! ## the sum -/

theorem sum_sides (negative : Bool) (ks : List Nat) :
    (ks.map fun k => side negative * (kept k / 100)).sum =
      side negative * ((ks.map kept).sum / 100) := by
  induction ks with
  | nil => simp
  | cons k ks ih =>
    rw [List.map_cons, List.sum_cons, ih, List.map_cons, List.sum_cons]
    push_cast
    ring

/-- the parts add up to their cents as the working precision shows them -/
theorem sum_of_divide (number : x.isFinite) (magnitude : x.abs = .ok r)
    (h : divide x n = .ok parts) :
    |(parts.map value).sum| = ((centParts ⌊100 * r.value⌋₊ n).map kept).sum / 100 := by
  obtain ⟨negative, -, worth⟩ := values_of_divide number magnitude h
  rw [worth, sum_sides, abs_mul, abs_side, one_mul, abs_of_nonneg]
  positivity

/-- below the working precision nothing is lost after the fraction of a cent -/
theorem sum_of_divide_small (number : x.isFinite) (magnitude : x.abs = .ok r)
    (h : divide x n = .ok parts) (some : 1 ≤ n) (small : r.value < 10 ^ 26) :
    |(parts.map value).sum| = ⌊100 * r.value⌋₊ / 100 := by
  have few : ⌊100 * r.value⌋₊ < 10 ^ (28 : Nat) := by
    rw [Nat.floor_lt' (by decide)]
    norm_num at small ⊢
    linarith
  rw [sum_of_divide number magnitude h]
  generalize ⌊100 * r.value⌋₊ = c at few
  have all : (centParts c n).map kept = centParts c n := by
    refine (List.map_congr_left fun k hk => ?_).trans (List.map_id _)
    exact kept_of_few (digitCount_le (by decide) ((le_of_mem_centParts some hk).trans_lt few))
  rw [all, sum_centParts some]

/-! ## rounded up -/

/-- **A fraction of a cent that is dropped makes up for the rounding before**: the cents below the
nearest number of a place are no more than the number that was rounded. -/
theorem floor_le_of_near {q : ℚ} {k : Nat} {g : Int} (near : |(k * 10 ^ g - q : ℚ)| ≤ 10 ^ g / 2)
    (fraction : ∀ c : Nat, (k * 10 ^ g : ℚ) ≠ c / 100) :
    (⌊100 * (k * 10 ^ g : ℚ)⌋₊ : ℚ) / 100 ≤ q := by
  have hundredth : (10 : ℚ) ^ (-2 : Int) = 1 / 100 := by norm_num
  have low : g < -2 := by
    by_contra high
    obtain ⟨p, rfl⟩ : ∃ p : Nat, g = p + -2 := ⟨(g + 2).toNat, by omega⟩
    refine fraction (k * 10 ^ p) ?_
    rw [zpow_add₀ (by norm_num), zpow_natCast, hundredth]
    push_cast
    ring
  obtain ⟨p, place⟩ : ∃ p : Nat, (-2 : Int) = p + g := ⟨(-2 - g).toNat, by omega⟩
  have ten : (0 : ℚ) < 10 ^ g := by positivity
  have cent : (1 / 100 : ℚ) = 10 ^ p * 10 ^ g := by
    rw [← hundredth, place, zpow_add₀ (by norm_num), zpow_natCast]
  generalize floor : ⌊100 * (k * 10 ^ g : ℚ)⌋₊ = c
  have below : (c : ℚ) ≤ 100 * (k * 10 ^ g) := floor ▸ Nat.floor_le (by positivity)
  -- the cents are whole units of the place as well, and so at least one unit less
  have less : c * 10 ^ p < k := by
    have units : ((c * 10 ^ p : Nat) : ℚ) * 10 ^ g < k * 10 ^ g := by
      have apart := fraction c
      push_cast
      rw [mul_assoc, ← cent]
      exact lt_of_le_of_ne (by linarith) fun same => apart (by linarith)
    exact_mod_cast lt_of_mul_lt_mul_right units ten.le
  have unit : ((c * 10 ^ p + 1 : Nat) : ℚ) * 10 ^ g ≤ k * 10 ^ g :=
    mul_le_mul_of_nonneg_right (by exact_mod_cast less) ten.le
  have cents : (c / 100 : ℚ) = c * 10 ^ p * 10 ^ g := by
    rw [mul_assoc, ← cent, mul_one_div]
  push_cast at unit
  rw [add_mul, ← cents] at unit
  have := (abs_le.1 near).2
  linarith

/-- **When the parts add up to no more than the amount.**  The magnitude is brought into the working
precision first.  If it is below `10 ^ 26` there, the parts add up to more than the amount just
where that made it more, and a whole number of cents.  From there on it is a whole number of cents,
and they do where the cents of the parts, each in the working precision, add up to more. -/
theorem divided_within_iff {amount : Amount} (read : amount.read = .ok x) (some : 1 ≤ n)
    (h : divide x n = .ok parts) :
    ∃ r, x.abs = .ok r ∧
      (|(parts.map value).sum| ≤ |x.value| ↔
        if r.value < 10 ^ 26 then r.value ≤ |x.value| ∨ ∀ c : Nat, r.value ≠ c / 100
        else ((centParts ⌊100 * r.value⌋₊ n).map kept).sum / 100 ≤ |x.value|) := by
  have number := Amount.isFinite_of_read read
  obtain ⟨_, -, cut⟩ := Except.bind_eq_ok.1 h
  obtain ⟨_, cents, -⟩ := Except.bind_eq_ok.1 cut
  obtain ⟨r, magnitude, -⟩ := Except.bind_eq_ok.1 cents
  refine ⟨r, magnitude, ?_⟩
  split
  · next small =>
    rw [sum_of_divide_small number magnitude h some small]
    obtain ⟨negative, m, e, rfl⟩ := exists_of_isFinite number
    obtain ⟨n, f, rfl, -, k, g, worth, near⟩ := fit_near magnitude
    rw [value_plain, worth, abs_value]
    constructor
    · intro within
      by_contra exceeds
      push Not at exceeds
      obtain ⟨more, c, whole⟩ := exceeds
      rw [whole, mul_div_cancel₀ _ (by norm_num), Nat.floor_natCast] at within
      linarith
    · rintro (within | fraction)
      · have := Nat.floor_le (by positivity : (0 : ℚ) ≤ 100 * (k * 10 ^ g))
        linarith
      · exact floor_le_of_near near fraction
  · rw [sum_of_divide number magnitude h]

/-- rounded up to a fraction of a cent, which is dropped -/
theorem divided_within_iff_fraction :
    ∃ parts, divide (.finite false 1000499999999999999999999999999 (-29)) (2 : Nat) = .ok parts ∧
      |(parts.map value).sum| ≤ |(finite false 1000499999999999999999999999999 (-29)).value| := by
  have cut : divide (.finite false 1000499999999999999999999999999 (-29)) (2 : Nat) =
      .ok [.finite false 500 (-2), .finite false 500 (-2)] := by decide +kernel
  have rounded : Decimal.abs (.finite false 1000499999999999999999999999999 (-29)) =
      .ok (.finite false 1000500000000000000000000000 (-26)) := by decide +kernel
  have read : (Amount.value (.text "10.00499999999999999999999999999")).read =
      .ok (.finite false 1000499999999999999999999999999 (-29)) := by decide +kernel
  obtain ⟨r, magnitude, within⟩ := divided_within_iff read (by decide : 1 ≤ 2) cut
  cases rounded.symm.trans magnitude
  refine ⟨_, cut, within.2 ?_⟩
  have worth : (finite false 1000500000000000000000000000 (-26)).value = 2001 / 200 := by
    rw [value_plain]
    norm_num
  rw [worth, if_pos (by norm_num)]
  right
  intro c whole
  have double : (2 * c : ℚ) = 2001 := by linarith
  have : 2 * c = 2001 := by exact_mod_cast double
  omega

/-- **The parts can add up to more than the amount**: one is a unit of the twenty-ninth digit below
a whole number, and its two halves are those of that number. -/
theorem divided_exceeds :
    ∃ x, (Amount.value (.text "0.99999999999999999999999999999")).read = .ok x ∧
      readCount 12 (.int 2) = .ok 2 ∧
      divide x 2 = .ok [.finite false 50 (-2), .finite false 50 (-2)] ∧
      |x.value| < |([finite false 50 (-2), finite false 50 (-2)].map value).sum| := by
  refine ⟨.finite false 99999999999999999999999999999 (-29), by decide +kernel, by decide +kernel,
    by decide +kernel, ?_⟩
  rw [List.map_cons, List.map_cons, List.map_nil, List.sum_cons, List.sum_cons, List.sum_nil,
    value_plain, value_plain]
  norm_num

end Billfold
