import Mathlib.Algebra.Order.Floor.Semifield
import Mathlib.Algebra.Order.Field.Power
import Mathlib.Data.Rat.Floor
import Mathlib.Tactic.FieldSimp
import Mathlib.Tactic.Linarith
import Mathlib.Tactic.Positivity
import Mathlib.Tactic.Ring
import Billfold.Proofs.Decimal.Sign
import Billfold.Proofs.Number.Shortest

/-!
# What a decimal is worth

A finite decimal is measured as a rational number here, and the working precision by how far it
takes a result from its exact value.

* `Decimal.value`         what a finite decimal is worth
* `lastPlace`             the place of the last digit that the working precision leaves
* `fit_eq`                a result in the working precision, and what it is worth
* `fit_near`, `fit_worth` it is the nearest one of its place, and exact if it loses zeros only
* `Decimal.Precise`        a number with nothing but zeros behind the digits that are kept
* `fit_isOk`              there is one if the exact value is not too large
* `wholePart_eq_floor`    the whole part as a number
-/

namespace Billfold

-- powers of natural numbers are those of the core library, whatever is imported beside this module
attribute [local instance (2000)] instPowNat

namespace Decimal

/-- the side of zero that a sign tells -/
def side (negative : Bool) : ℚ := if negative then -1 else 1

def value : Decimal → ℚ
  | finite negative coefficient exponent => side negative * (coefficient * 10 ^ exponent)
  | _ => 0

variable {negative : Bool} {m n p k : Nat} {e f g : Int} {x y : Decimal}

theorem exists_of_isFinite (number : x.isFinite) : ∃ negative m e, x = finite negative m e := by
  cases x with
  | finite => exact ⟨_, _, _, rfl⟩
  | infinite => cases number
  | nan => cases number

theorem exists_isNegative (number : x.isFinite) : ∃ negative, x.isNegative = .ok negative := by
  obtain ⟨negative, m, e, rfl⟩ := exists_of_isFinite number
  exact ⟨_, rfl⟩

theorem worth_nonneg (m : Nat) (e : Int) : (0 : ℚ) ≤ m * 10 ^ e := by positivity

theorem abs_side (negative : Bool) : |side negative| = 1 := by
  unfold side
  cases negative <;> norm_num

theorem value_finite (negative : Bool) (m : Nat) (e : Int) :
    (finite negative m e).value = side negative * (m * 10 ^ e) := rfl

theorem value_zero (negative : Bool) (e : Int) : (finite negative 0 e).value = 0 := by
  rw [value_finite, Nat.cast_zero, zero_mul, mul_zero]

theorem value_plain (m : Nat) (e : Int) : (finite false m e).value = m * 10 ^ e := one_mul _

theorem abs_value (negative : Bool) (m : Nat) (e : Int) :
    |(finite negative m e).value| = m * 10 ^ e := by
  show |side negative * (m * 10 ^ e : ℚ)| = _
  rw [abs_mul, abs_side, one_mul, abs_of_nonneg (worth_nonneg m e)]

/-! ## digits dropped -/

theorem dropDigits_near (m p : Nat) :
    2 * (dropDigits m p * 10 ^ p) ≤ 2 * m + 10 ^ p ∧
      2 * m ≤ 2 * (dropDigits m p * 10 ^ p) + 10 ^ p := by
  unfold dropDigits
  split
  · next few =>
    -- a number with a digit less than are dropped is below a tenth of the unit
    obtain ⟨q, rfl⟩ : ∃ q, p = q + 1 := ⟨p - 1, by omega⟩
    have below : m < 10 ^ q := lt_pow_of_digitCount (by omega)
    rw [Nat.zero_mul, Nat.pow_succ]
    omega
  · exact roundHalfEven_near m (Nat.pow_pos (by decide))

theorem dropDigits_of_dvd (zeros : 10 ^ p ∣ m) : dropDigits m p * 10 ^ p = m := by
  have unit : 0 < 10 ^ p := Nat.pow_pos (by decide)
  obtain ⟨q, rfl⟩ := zeros
  unfold dropDigits
  split
  · next few =>
    have below := lt_pow_digitCount (10 ^ p * q)
    have less : 10 ^ digitCount (10 ^ p * q) ≤ 10 ^ p := Nat.pow_le_pow_right (by decide) few.le
    have none : q = 0 := by
      by_contra some
      have := Nat.le_mul_of_pos_right (10 ^ p) (Nat.pos_of_ne_zero some)
      omega
    rw [none, Nat.mul_zero, Nat.zero_mul]
  · rw [Nat.mul_comm (10 ^ p) q, roundHalfEven_mul q unit]

theorem dropDigits_le (few : digitCount m ≤ k + p) : dropDigits m p ≤ 10 ^ k := by
  have unit : 0 < 10 ^ p := Nat.pow_pos (by decide)
  have below := lt_pow_of_digitCount few
  rw [Nat.pow_add] at below
  have whole : m / 10 ^ p < 10 ^ k := Nat.div_lt_of_lt_mul (by rwa [Nat.mul_comm])
  unfold dropDigits
  split
  · exact Nat.zero_le _
  · rcases roundHalfEven_eq_or m (10 ^ p) with down | up
    · omega
    · omega

/-! ## results -/

/-- the place of the last digit that the working precision leaves of `m * 10 ^ e` -/
def lastPlace (m : Nat) (e : Int) : Int :=
  max (e + (digitCount m - 28 : Nat)) (if e + digitCount m - 1 < -999999 then -1000026 else e)

theorem le_lastPlace (m : Nat) (e : Int) : e ≤ lastPlace m e := by
  unfold lastPlace
  omega

/-- a finite number that is one of the working precision -/
structure Held (n : Nat) (f : Int) : Prop where
  few : digitCount n ≤ 28
  low : -1000026 ≤ f

/-- **A result in the working precision is what is left above its last place.** -/
theorem fit_eq (h : fit negative m e = .ok y) :
    ∃ n f, y = finite negative n f ∧ Held n f ∧
      (n * 10 ^ f : ℚ) = dropDigits m (lastPlace m e - e).toNat * 10 ^ lastPlace m e := by
  unfold fit fitIn at h
  split at h
  · next none =>
    cases h
    subst none
    refine ⟨0, _, rfl, ⟨by rw [digitCount_zero]; decide, le_max_left _ _⟩, ?_⟩
    have nothing : dropDigits 0 (lastPlace 0 e - e).toNat = 0 := by
      have := dropDigits_of_dvd (Nat.dvd_zero (10 ^ (lastPlace 0 e - e).toNat))
      exact (Nat.mul_eq_zero.1 this).resolve_right (Nat.pos_iff_ne_zero.1 (Nat.pow_pos (by decide)))
    rw [nothing]
    simp
  · next pos =>
    have one := digitCount_pos m
    have last_eq : max (e + (digitCount m - Context.working.digits : Nat))
        (if e + digitCount m - 1 < Context.working.minExponent then Context.working.tiny else e) =
        lastPlace m e := rfl
    dsimp only at h
    rw [last_eq] at h
    have low : -1000026 ≤ lastPlace m e := by
      unfold lastPlace
      split <;> omega
    have few : digitCount m ≤ 28 + (lastPlace m e - e).toNat := by
      unfold lastPlace
      omega
    have most := dropDigits_le few
    split at h
    · cases h
    split at h
    · next carried =>
      -- the carry has one digit more, which is a zero
      split at h
      · cases h
      · cases h
        refine ⟨10 ^ 27, _, rfl, ⟨digitCount_le (by decide) (by decide), by omega⟩, ?_⟩
        rw [carried, zpow_add₀ (by norm_num)]
        norm_num [Context.working]
        ring
    · next short =>
      cases h
      have short : dropDigits m (lastPlace m e - e).toNat ≠ 10 ^ 28 := short
      exact ⟨_, _, rfl, ⟨digitCount_le (by decide) (Nat.lt_of_le_of_ne most short), low⟩, rfl⟩

theorem fit_near (h : fit negative m e = .ok y) :
    ∃ n f, y = finite negative n f ∧ Held n f ∧ ∃ (k : Nat) (g : Int),
      (n * 10 ^ f : ℚ) = k * 10 ^ g ∧ |(k * 10 ^ g - m * 10 ^ e : ℚ)| ≤ 10 ^ g / 2 := by
  obtain ⟨n, f, rfl, held, worth⟩ := fit_eq h
  refine ⟨n, f, rfl, held, _, _, worth, ?_⟩
  obtain ⟨p, place⟩ : ∃ p : Nat, lastPlace m e = p + e :=
    ⟨(lastPlace m e - e).toNat, by have := le_lastPlace m e; omega⟩
  have ten : (0 : ℚ) < 10 ^ e := by positivity
  obtain ⟨below, above⟩ := dropDigits_near m p
  have below : 2 * ((dropDigits m p : ℚ) * 10 ^ p) ≤ 2 * m + 10 ^ p := by exact_mod_cast below
  have above : 2 * (m : ℚ) ≤ 2 * (dropDigits m p * 10 ^ p) + 10 ^ p := by exact_mod_cast above
  rw [place, Int.add_sub_cancel, Int.toNat_natCast, zpow_add₀ (by norm_num), zpow_natCast,
    ← mul_assoc, ← sub_mul, abs_mul, abs_of_pos ten, mul_div_right_comm]
  refine mul_le_mul_of_nonneg_right (abs_le.2 ⟨?_, ?_⟩) ten.le <;> linarith

theorem fit_worth (h : fit negative m e = .ok y) (zeros : 10 ^ (digitCount m - 28) ∣ m)
    (low : -1000026 ≤ e ∨ -999999 < e + digitCount m) :
    ∃ n f, y = finite negative n f ∧ Held n f ∧ (n * 10 ^ f : ℚ) = m * 10 ^ e := by
  obtain ⟨n, f, rfl, held, worth⟩ := fit_eq h
  refine ⟨n, f, rfl, held, worth.trans ?_⟩
  have place : lastPlace m e = (digitCount m - 28 : Nat) + e := by
    unfold lastPlace
    split <;> omega
  have all : ((dropDigits m (digitCount m - 28) : ℚ) * 10 ^ (digitCount m - 28)) = m := by
    exact_mod_cast dropDigits_of_dvd zeros
  rw [place, Int.add_sub_cancel, Int.toNat_natCast, zpow_add₀ (by norm_num), zpow_natCast,
    ← mul_assoc, all]

/-- a finite number with nothing but zeros behind the digits of the working precision -/
def Precise : Decimal → Prop
  | finite _ coefficient _ => 10 ^ (digitCount coefficient - 28) ∣ coefficient
  | _ => False

theorem Precise.isFinite (h : x.Precise) : x.isFinite = true := by
  cases x with
  | finite => rfl
  | infinite => exact h.elim
  | nan => exact h.elim

theorem lt_of_digitCount (m : Nat) (e : Int) : (m * 10 ^ e : ℚ) < 10 ^ (e + digitCount m) := by
  have ten : (0 : ℚ) < 10 ^ e := by positivity
  have below : (m : ℚ) < 10 ^ digitCount m := by exact_mod_cast lt_pow_digitCount m
  rw [Int.add_comm, zpow_add₀ (by norm_num), zpow_natCast]
  exact mul_lt_mul_of_pos_right below ten

/-- **The magnitude of a number in the working precision is exact**, but for the smallest
numbers. -/
theorem value_abs_of_precise (precise : x.Precise) (large : 1 / 200 ≤ |x.value|)
    (h : x.abs = .ok y) : y.value = |x.value| := by
  cases x with
  | infinite => exact precise.elim
  | nan => exact precise.elim
  | finite negative m e =>
    rw [abs_value] at large ⊢
    have low : -3 < e + digitCount m := by
      refine (zpow_lt_zpow_iff_right₀ (by norm_num : (1 : ℚ) < 10)).1 ?_
      have thousandth : (10 : ℚ) ^ (-3 : Int) < 1 / 200 := by norm_num
      exact (thousandth.trans_le large).trans (lt_of_digitCount m e)
    obtain ⟨n, f, rfl, -, worth⟩ := fit_worth h precise (.inr (by omega))
    rw [value_plain, worth]

/-- the digits of what is held are told by its worth -/
theorem digitCount_le_of_worth (pos : m ≠ 0) (h : (m * 10 ^ e : ℚ) < 10 ^ g) :
    e + digitCount m ≤ g := by
  have low := (digitCount_bounds pos).1
  have ten : (0 : ℚ) < 10 ^ e := by positivity
  have lt : (10 : ℚ) ^ ((digitCount m : Int) - 1 + e) < 10 ^ g := by
    rw [zpow_add₀ (by norm_num)]
    exact (mul_le_mul_of_nonneg_right low ten.le).trans_lt h
  have := (zpow_lt_zpow_iff_right₀ (by norm_num)).1 lt
  omega

theorem lt_limit {q : ℚ} (h : q < 1000 * 10 ^ (999996 : Int)) : q < 10 ^ (999999 : Int) := by
  have limit : (10 : ℚ) ^ (999999 : Int) = 10 ^ (3 : Int) * 10 ^ (999996 : Int) :=
    zpow_add₀ (by norm_num) 3 999996
  have thousand : (10 : ℚ) ^ (3 : Int) = 1000 := by norm_num
  rwa [limit, thousand]

theorem fit_isOk (negative : Bool) (h : (m * 10 ^ e : ℚ) < 10 ^ (999999 : Int)) :
    ∃ y, fit negative m e = .ok y := by
  by_cases none : m = 0
  · subst none
    exact ⟨_, rfl⟩
  have high := digitCount_le_of_worth none h
  have one := digitCount_pos m
  have last_eq : max (e + (digitCount m - Context.working.digits : Nat))
      (if e + digitCount m - 1 < Context.working.minExponent then Context.working.tiny else e) =
      lastPlace m e := rfl
  unfold fit fitIn
  dsimp only
  rw [if_neg none, if_neg (by show ¬ (999999 : Int) < _; omega), last_eq]
  split
  · next carried =>
    -- there is a carry only where digits are lost, and then the last place is 28 below the first
    have lost : lastPlace m e + 28 ≤ 999999 := by
      by_contra more
      have same : lastPlace m e = e := by
        unfold lastPlace at more ⊢
        split at more <;> split <;> omega
      have few : digitCount m ≤ 28 := by
        unfold lastPlace at same
        omega
      rw [same, Int.sub_self] at carried
      have whole : dropDigits m (0 : Int).toNat = m := by
        have := dropDigits_of_dvd (p := 0) (Nat.one_dvd m)
        rwa [Nat.pow_zero, Nat.mul_one] at this
      rw [whole] at carried
      have := lt_pow_of_digitCount few
      rw [carried] at this
      exact Nat.lt_irrefl _ this
    rw [if_neg (by show ¬ (999999 : Int) < _ + 28; omega)]
    exact ⟨_, rfl⟩
  · exact ⟨_, rfl⟩

/-- no result is worth more than twice the exact value -/
theorem fit_le (h : fit negative m e = .ok y) : |y.value| ≤ 2 * (m * 10 ^ e) := by
  obtain ⟨n, f, rfl, -, k, g, worth, near⟩ := fit_near h
  have ten : (0 : ℚ) < 10 ^ g := by positivity
  have exact_ := worth_nonneg m e
  rw [abs_value, worth]
  rcases Nat.eq_zero_or_pos k with none | some
  · rw [none, Nat.cast_zero, zero_mul]
    linarith
  · have one : (1 : ℚ) * 10 ^ g ≤ k * 10 ^ g :=
      mul_le_mul_of_nonneg_right (by exact_mod_cast some) ten.le
    have := (abs_le.1 near).2
    linarith

/-! ## the whole part -/

theorem wholePart_eq_floor (m : Nat) (e : Int) : wholePart m e = ⌊(m * 10 ^ e : ℚ)⌋₊ := by
  unfold wholePart
  by_cases whole : 0 ≤ e
  · obtain ⟨k, rfl⟩ := Int.eq_ofNat_of_zero_le whole
    rw [if_pos whole, Int.toNat_natCast, zpow_natCast]
    have := Nat.floor_natCast (R := ℚ) (m * 10 ^ k)
    push_cast at this
    exact this.symm
  · obtain ⟨k, rfl⟩ : ∃ k : Nat, e = -(k : Int) := ⟨(-e).toNat, by omega⟩
    have quotient : ⌊(m * 10 ^ (-(k : Int)) : ℚ)⌋₊ = m / 10 ^ k := by
      rw [zpow_neg, zpow_natCast, ← div_eq_mul_inv]
      have := Nat.floor_div_eq_div (K := ℚ) m (10 ^ k)
      push_cast at this
      exact this
    rw [if_neg whole, quotient, Int.neg_neg, Int.toNat_natCast]
    split
    · next few => exact (Nat.div_eq_of_lt (lt_pow_of_digitCount few)).symm
    · rfl

end Decimal

end Billfold
