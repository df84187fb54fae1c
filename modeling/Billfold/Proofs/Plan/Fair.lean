import Billfold.Proofs.Plan.Divide

/-!
# A fair split

An amount in the working precision is cut into parts of whole cents that add up to the amount
without its fraction of a cent.  The earlier parts are the larger ones, by no more than a cent.

* `truncated`          a number without its fraction of a cent
* `value_of_side`      a number from its magnitude and its side of zero
* `descending_centParts`   the parts in cents do not grow
* `divide_fair`        the split of an amount
-/

namespace Billfold

-- powers and zero are those of the core library, whatever is imported beside this module
attribute [local instance (2000)] instPowNat Zero.ofOfNat0

open Decimal

def truncated (q : ℚ) : ℚ := (if q < 0 then ⌈100 * q⌉ else ⌊100 * q⌋ : Int) / 100

section
variable {negative : Bool} {x : Decimal}

theorem value_of_side (number : x.isFinite) (h : x.isNegative = .ok negative) :
    x.value = side negative * |x.value| ∧ (negative = true → x.value < 0) := by
  obtain ⟨b, m, e, rfl⟩ := exists_of_isFinite number
  cases h
  rw [abs_value]
  cases b with
  | false => exact ⟨rfl, fun h => (nomatch h)⟩
  | true =>
    by_cases none : m = 0
    · subst none
      rw [value_zero, Nat.cast_zero, zero_mul, mul_zero]
      exact ⟨rfl, fun h => (nomatch h)⟩
    · have positive : (0 : ℚ) < m * 10 ^ e := by
        have : (0 : ℚ) < m := by exact_mod_cast Nat.pos_of_ne_zero none
        positivity
      have opposite : (finite true m e).value = -(m * 10 ^ e) := neg_one_mul _
      rw [bne_iff_ne.2 none]
      exact ⟨rfl, fun _ => opposite ▸ neg_lt_zero.2 positive⟩

theorem truncated_of_side (number : x.isFinite) (h : x.isNegative = .ok negative) :
    truncated x.value = side negative * (⌊100 * |x.value|⌋₊ / 100) := by
  obtain ⟨worth, below⟩ := value_of_side number h
  have floor : ((⌊100 * |x.value|⌋₊ : Nat) : ℚ) = (⌊100 * |x.value|⌋ : Int) := by
    rw [← Int.natCast_floor_eq_floor (by positivity), Int.cast_natCast]
  unfold truncated
  rw [floor]
  cases negative with
  | false =>
    have same : x.value = |x.value| := worth.trans (one_mul _)
    have above : ¬ x.value < 0 := not_lt.2 (same ▸ abs_nonneg x.value)
    rw [if_neg above, ← same]
    exact (one_mul _).symm
  | true =>
    have opposite : 100 * x.value = -(100 * |x.value|) := by
      rw [← mul_neg]
      exact congrArg (100 * ·) (worth.trans (neg_one_mul _))
    rw [if_pos (below rfl), opposite, Int.ceil_neg, Int.cast_neg, neg_div]
    exact (neg_one_mul _).symm

end

theorem truncated_of_cents (c : Int) : truncated (c / 100) = c / 100 := by
  have whole : (100 * (c / 100) : ℚ) = c := mul_div_cancel₀ _ (by norm_num)
  unfold truncated
  rw [whole, Int.floor_intCast, Int.ceil_intCast, ite_self]

/-! ## parts -/

/-- **The parts do not grow from one to the next.** -/
theorem descending_centParts (cents count : Nat) :
    (centParts cents count).Pairwise fun k l => l ≤ k := by
  unfold centParts
  rw [List.pairwise_map]
  refine List.Pairwise.imp ?_ List.pairwise_lt_range
  intro i j before
  split <;> split <;> omega

theorem value_part (negative : Bool) (k : Nat) :
    (finite negative k (-2)).value = side negative * (k / 100) := by
  have cents : (10 : ℚ) ^ (-2 : Int) = 1 / 100 := by norm_num
  rw [value_finite, cents, mul_one_div]

theorem sum_value_parts (negative : Bool) (ks : List Nat) :
    ((ks.map fun k => finite negative k (-2)).map value).sum = side negative * (ks.sum / 100) := by
  induction ks with
  | nil => simp
  | cons k ks ih =>
    rw [List.map_cons, List.map_cons, List.sum_cons, ih, value_part, List.sum_cons]
    push_cast
    ring

theorem Plan.total_eq_sum {p : Plan} {negative : Bool} {ks : List Nat}
    (carried : p.lines.map Line.amount = ks.map fun k => finite negative k (-2)) (some : ks ≠ [])
    (small : ks.sum < 10 ^ (28 : Nat)) :
    ∃ total, p.total = .ok total ∧ total.value = side negative * (ks.sum / 100) := by
  refine ⟨finite (negative && ks.sum != 0) ks.sum (-2), ?_, ?_⟩
  · unfold Plan.total
    rw [carried]
    exact sum_parts some small
  · by_cases none : ks.sum = 0
    · rw [none, value_zero, Nat.cast_zero, zero_div, mul_zero]
    · rw [bne_iff_ne.2 none, Bool.and_true, value_part]

theorem near_parts {negative : Bool} {c n k l : Nat} (hk : k ∈ centParts c n)
    (hl : l ∈ centParts c n) :
    |(finite negative k (-2)).value - (finite negative l (-2)).value| ≤ 1 / 100 := by
  have up : (k : ℚ) ≤ l + 1 := by exact_mod_cast near_of_mem_centParts hk hl
  have down : (l : ℚ) ≤ k + 1 := by exact_mod_cast near_of_mem_centParts hl hk
  rw [value_part, value_part, ← mul_sub, abs_mul, abs_side, one_mul, abs_le]
  constructor <;> linarith

theorem abs_value_part (negative : Bool) (k : Nat) :
    |(finite negative k (-2)).value| = k / 100 := by
  rw [value_part, abs_mul, abs_side, one_mul, abs_of_nonneg (by positivity)]

theorem follows_part {negative : Bool} {x : Decimal} {n k : Nat} (number : x.isFinite)
    (h : x.isNegative = .ok negative) (pos : 0 < n) (hk : k ∈ centParts ⌊100 * |x.value|⌋₊ n) :
    (finite negative k (-2)).Follows x := by
  by_cases none : k = 0
  · exact .inl (if_pos none)
  · right
    obtain ⟨b, m, e, rfl⟩ := exists_of_isFinite number
    cases h
    have some : m ≠ 0 := by
      rintro rfl
      rw [value_zero, abs_zero, mul_zero, Nat.floor_zero] at hk
      exact none (Nat.le_zero.1 (le_of_mem_centParts pos hk))
    rw [sign_of_pos none, sign_of_pos some, bne_iff_ne.2 some, Bool.and_true]

/-! ## the split -/

variable {x : Decimal} {n : Nat}

/-- **An amount is split exactly and fairly.**  An amount in the working precision is cut into `n`
parts, and both their exact sum and the total of a plan with these parts are the amount without its
fraction of a cent.  Each part is a number of cents, zero or on the side of the amount; the parts do
not grow, and no two of them are more than a cent apart. -/
theorem divide_fair (precise : x.Precise) (small : |x.value| < 10 ^ 26) (some : 1 ≤ n) :
    ∃ parts, divide x n = .ok parts ∧ parts.length = n ∧
      (parts.map value).sum = truncated x.value ∧
      (∀ c : Int, x.value = c / 100 → (parts.map value).sum = x.value) ∧
      (∀ p : Plan, p.lines.map Line.amount = parts →
        ∃ total, p.total = .ok total ∧ total.value = truncated x.value) ∧
      (∀ y ∈ parts, (∃ negative k, y = finite negative k (-2)) ∧ y.Follows x) ∧
      parts.Pairwise (fun y z => |z.value| ≤ |y.value|) ∧
      ∀ y ∈ parts, ∀ z ∈ parts, |y.value - z.value| ≤ 1 / 100 := by
  have number := precise.isFinite
  obtain ⟨negative, h⟩ := exists_isNegative number
  have wide : (10 : ℚ) ^ 26 ≤ 10 ^ (999996 : Int) := by
    rw [← zpow_natCast]
    exact zpow_le_zpow_right₀ (by norm_num) (by decide)
  have cents := wholeCents_of_precise precise (small.trans_le wide)
  have few : ⌊100 * |x.value|⌋₊ < 10 ^ (28 : Nat) := by
    rw [Nat.floor_lt (by positivity)]
    norm_num at small ⊢
    linarith
  have whole := truncated_of_side number h
  have follows := fun k => follows_part (k := k) number h some
  generalize ⌊100 * |x.value|⌋₊ = c at cents few whole follows
  have all : (centParts c n).sum = c := sum_centParts some
  have total : (((centParts c n).map fun k => finite negative k (-2)).map value).sum =
      truncated x.value := by
    rw [sum_value_parts, all, whole]
  refine ⟨_, divide_eq h cents few some, ?_, total, ?_, ?_, ?_, ?_, ?_⟩
  · rw [List.length_map, length_centParts]
  · intro c' exact_
    rw [total, exact_, truncated_of_cents]
  · intro p carried
    have parts : centParts c n ≠ [] := List.ne_nil_of_length_pos (by rwa [length_centParts])
    rw [whole, ← all]
    exact Plan.total_eq_sum carried parts (by rwa [all])
  · intro y hy
    obtain ⟨k, hk, rfl⟩ := List.mem_map.1 hy
    exact ⟨⟨negative, k, rfl⟩, follows k hk⟩
  · rw [List.pairwise_map]
    refine (descending_centParts c n).imp fun {k l} le => ?_
    rw [abs_value_part, abs_value_part]
    have : (l : ℚ) ≤ k := by exact_mod_cast le
    linarith
  · intro y hy z hz
    obtain ⟨k, hk, rfl⟩ := List.mem_map.1 hy
    obtain ⟨l, hl, rfl⟩ := List.mem_map.1 hz
    exact near_parts hk hl

/-- a refund that fills the working precision -/
theorem divide_fair_refund :
    ∃ parts, divide (.finite true 9999999999999999999999999999 (-2)) (7 : Nat) = .ok parts ∧
      parts.length = 7 ∧ (parts.map value).sum = -9999999999999999999999999999 / 100 := by
  have worth : (finite true 9999999999999999999999999999 (-2)).value =
      -9999999999999999999999999999 / 100 := by
    rw [value_part]
    norm_num [side]
  have small : |(finite true 9999999999999999999999999999 (-2)).value| < 10 ^ 26 := by
    rw [abs_value_part]
    norm_num
  have precise : (finite true 9999999999999999999999999999 (-2)).Precise := by
    show 10 ^ (digitCount 9999999999999999999999999999 - 28) ∣ 9999999999999999999999999999
    decide +kernel
  obtain ⟨parts, cut, length, -, whole, -⟩ := divide_fair precise small (by decide : 1 ≤ 7)
  refine ⟨parts, cut, length, ?_⟩
  rw [← worth]
  refine whole (-9999999999999999999999999999) ?_
  rw [worth]
  norm_num

end Billfold
