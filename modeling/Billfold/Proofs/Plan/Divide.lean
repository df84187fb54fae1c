import Billfold.Proofs.Book.Money
import Billfold.Proofs.Decimal.Cents
import Billfold.Proofs.Plan.Cut
import Billfold.Proofs.Plan.Length

/-!
# What the parts of an amount are

An amount of whole cents is cut into parts that add up to it, none of them a cent more than another,
and each part is kept in the book as it is.

* `sum_centParts`, `le_of_mem_centParts`, `near_of_mem_centParts`   the parts in cents
* `signedParts`         the parts with the sign of the amount
* `divide_isOk`         an amount that is not too large can be cut
* `divide_eq`, `divide_of_isCents`   cutting an amount gives just these
* `Plan.amounts_of_divide`   and so do the lines of a plan
-/

namespace Billfold

-- powers and zero are those of the core library, whatever is imported beside this module
attribute [local instance (2000)] instPowNat Zero.ofOfNat0

/-! ## parts in cents -/

section
variable {cents count : Nat}

/-- the first parts get a cent of the remainder each -/
theorem sum_cents_range (q r : Nat) (n : Nat) :
    ((List.range n).map fun i => q + if i < r then 1 else 0).sum = n * q + min n r := by
  induction n with
  | zero => simp
  | succ n ih =>
    rw [List.range_succ, List.map_append, List.sum_append, ih, Nat.succ_mul]
    simp only [List.map_cons, List.map_nil, List.sum_cons, List.sum_nil]
    split <;> omega

/-- **The parts add up to the whole.** -/
theorem sum_centParts (pos : 0 < count) : (centParts cents count).sum = cents := by
  have rest := Nat.mod_lt cents pos
  have whole := Nat.div_add_mod cents count
  unfold centParts
  rw [sum_cents_range]
  omega

theorem mem_centParts {k : Nat} (h : k ∈ centParts cents count) :
    cents / count ≤ k ∧ k ≤ cents / count + 1 ∧ (k = cents / count + 1 → 0 < cents % count) := by
  obtain ⟨i, -, rfl⟩ := List.mem_map.1 h
  split <;> omega

theorem near_of_mem_centParts {k l : Nat} (hk : k ∈ centParts cents count)
    (hl : l ∈ centParts cents count) : k ≤ l + 1 := by
  have := (mem_centParts hk).2.1
  have := (mem_centParts hl).1
  omega

theorem le_of_mem_centParts (pos : 0 < count) {k : Nat} (h : k ∈ centParts cents count) :
    k ≤ cents := by
  obtain ⟨-, le, more⟩ := mem_centParts h
  have whole := Nat.div_add_mod cents count
  have once : 1 * (cents / count) ≤ count * (cents / count) := Nat.mul_le_mul_right _ pos
  omega

end

def withSignOf (c : Int) (cents : Nat) : Int := if c < 0 then -(cents : Int) else cents

def signedParts (c : Int) (count : Nat) : List Int :=
  (centParts c.natAbs count).map (withSignOf c)

section
variable {c : Int} {count : Nat}

theorem length_signedParts (c : Int) (count : Nat) : (signedParts c count).length = count := by
  unfold signedParts
  rw [List.length_map, length_centParts]

theorem natAbs_withSignOf (c : Int) (k : Nat) : (withSignOf c k).natAbs = k := by
  unfold withSignOf
  split <;> omega

theorem ofCents_withSignOf (c : Int) (k : Nat) :
    Decimal.ofCents (withSignOf c k) = .finite (decide (c < 0) && k != 0) k (-2) := by
  have sign : decide (withSignOf c k < 0) = (decide (c < 0) && k != 0) := by
    rw [Bool.eq_iff_iff, decide_eq_true_iff, Bool.and_eq_true_iff, decide_eq_true_iff,
      bne_iff_ne]
    unfold withSignOf
    split <;> omega
  unfold Decimal.ofCents
  rw [sign, natAbs_withSignOf]

theorem sum_withSignOf (c : Int) (ks : List Nat) :
    (ks.map (withSignOf c)).sum = withSignOf c ks.sum := by
  unfold withSignOf
  induction ks with
  | nil => simp
  | cons k ks ih =>
    rw [List.map_cons, List.sum_cons, ih, List.sum_cons]
    split <;> omega

/-- **The signed parts add up to the amount.** -/
theorem sum_signedParts (pos : 0 < count) : (signedParts c count).sum = c := by
  unfold signedParts
  rw [sum_withSignOf, sum_centParts pos]
  unfold withSignOf
  split <;> omega

theorem sign_of_mem_signedParts (pos : 0 < count) {a : Int} (h : a ∈ signedParts c count) :
    a = 0 ∨ a.sign = c.sign := by
  obtain ⟨k, hk, rfl⟩ := List.mem_map.1 h
  have le := le_of_mem_centParts pos hk
  by_cases none : k = 0
  · left
    rw [none]
    unfold withSignOf
    split <;> rfl
  · right
    unfold withSignOf
    split
    · rw [Int.sign_eq_neg_one_of_neg (by omega), Int.sign_eq_neg_one_of_neg (by omega)]
    · rw [Int.sign_eq_one_of_pos (by omega), Int.sign_eq_one_of_pos (by omega)]

theorem near_of_mem_signedParts {a b : Int} (ha : a ∈ signedParts c count)
    (hb : b ∈ signedParts c count) : a - b ≤ 1 := by
  obtain ⟨k, hk, rfl⟩ := List.mem_map.1 ha
  obtain ⟨l, hl, rfl⟩ := List.mem_map.1 hb
  have := near_of_mem_centParts hk hl
  have := near_of_mem_centParts hl hk
  unfold withSignOf
  split <;> omega

theorem natAbs_le_of_mem_signedParts (pos : 0 < count) {a : Int} (h : a ∈ signedParts c count) :
    a.natAbs ≤ c.natAbs := by
  obtain ⟨k, hk, rfl⟩ := List.mem_map.1 h
  rw [natAbs_withSignOf]
  exact le_of_mem_centParts pos hk

theorem sum_natAbs_signedParts (pos : 0 < count) :
    ((signedParts c count).map Int.natAbs).sum = c.natAbs := by
  have plain : (centParts c.natAbs count).map (Int.natAbs ∘ withSignOf c) =
      centParts c.natAbs count :=
    (List.map_congr_left fun k _ => natAbs_withSignOf c k).trans (List.map_id _)
  unfold signedParts
  rw [List.map_map, plain, sum_centParts pos]

/-- **Each part comes back from the book as it is.** -/
theorem settle?_part (pos : 0 < count) (small : c.natAbs < 10 ^ (15 : Nat)) {k : Nat}
    (h : k ∈ centParts c.natAbs count) :
    settle? (.finite (decide (c < 0)) k (-2)) = some (.ofCents (withSignOf c k)) := by
  have le := le_of_mem_centParts pos h
  rw [ofCents_withSignOf]
  exact settle?_cents (by omega) _

end

/-! ## the amount of a request -/

def Nature.cents (c : Int) : Nature → Int
  | inflow => -c
  | outflow => c

theorem Nature.natAbs_cents (c : Int) (direction : Nature) :
    (direction.cents c).natAbs = c.natAbs := by
  cases direction with
  | inflow => exact Int.natAbs_neg c
  | outflow => rfl

theorem Amount.read_decimal {x y : Decimal} (h : (Amount.decimal x).read = .ok y) : y = x := by
  unfold Amount.read Amount.finite at h
  dsimp only at h
  split at h
  · cases h; rfl
  · cases h

theorem Amount.isCents_of_signed {a : Amount} {x y : Decimal} {c : Int} {nature : Json}
    {direction : Nature} (read : a.read = .ok x) (cents : x.IsCents c)
    (small : c.natAbs < 10 ^ (15 : Nat)) (named : Nature.of? nature = some direction)
    (h : a.signed nature = .ok y) :
    y.IsCents (direction.cents c) := by
  unfold Amount.signed at h
  rw [named] at h
  dsimp only at h
  obtain ⟨_, read', h⟩ := Except.bind_eq_ok.1 h
  rw [read] at read'
  cases read'
  have signed := Except.liftFault_eq_ok.1 h
  cases direction with
  | outflow =>
    cases signed
    exact cents
  | inflow =>
    obtain ⟨z, opposite, isCents⟩ := cents.neg small
    have same : z = y := Except.ok.inj (opposite.symm.trans signed)
    exact same ▸ isCents

/-! ## cutting an amount -/

section
variable {x : Decimal} {c : Int} {count : Nat}

theorem isNegative_of_isCents (h : x.IsCents c) : x.isNegative = .ok (decide (c < 0)) := by
  obtain ⟨negative, m, e, rfl, -, ⟨rfl, rfl⟩ | ⟨pos, -, rfl, -, -⟩⟩ := h.cases
  · show Except.ok (negative && false) = _
    rw [Bool.and_false]
    rfl
  · show Except.ok (decide (c < 0) && m != 0) = _
    rw [bne_iff_ne.2 pos, Bool.and_true]

theorem abs_value_of_isCents (h : x.IsCents c) : |x.value| = c.natAbs / 100 := by
  obtain ⟨negative, m, e, rfl, -, ⟨rfl, rfl⟩ | ⟨-, -, -, -, same⟩⟩ := h.cases
  · rw [Decimal.abs_value, Nat.cast_zero, zero_mul, Int.natAbs_zero, Nat.cast_zero, zero_div]
  · generalize p_eq : (e + 2).toNat = p at same
    generalize q_eq : (-2 - e).toNat = q at same
    have same : (m * 10 ^ p : ℚ) = c.natAbs * 10 ^ q := by exact_mod_cast same
    have places : e = p - q - 2 := by omega
    have hundred : (10 : ℚ) ^ (2 : Int) = 100 := by norm_num
    rw [Decimal.abs_value, places, zpow_sub₀ (by norm_num), zpow_sub₀ (by norm_num), zpow_natCast,
      zpow_natCast, hundred, ← mul_div_assoc, ← mul_div_assoc, same,
      mul_div_cancel_right₀ _ (by positivity)]

theorem wholeCents_of_isCents (h : x.IsCents c) (small : c.natAbs < 10 ^ (15 : Nat)) :
    wholeCents x = .ok c.natAbs := by
  have worth := abs_value_of_isCents h
  have precise : x.Precise := by
    obtain ⟨negative, m, e, rfl, few, -⟩ := h.cases
    have none : digitCount m - 28 = 0 := by omega
    show 10 ^ (digitCount m - 28) ∣ m
    rw [none]
    exact Nat.one_dvd m
  have less : |x.value| < 10 ^ (999996 : Int) := by
    have small : (c.natAbs : ℚ) < 10 ^ (15 : Nat) := by exact_mod_cast small
    have wide : (10 : ℚ) ^ (15 : Int) ≤ 10 ^ (999996 : Int) :=
      zpow_le_zpow_right₀ (by norm_num) (by decide)
    refine lt_of_lt_of_le ?_ wide
    rw [worth, zpow_ofNat]
    linarith
  rw [wholeCents_of_precise precise less, worth, mul_div_cancel₀ _ (by norm_num), Nat.floor_natCast]

theorem centAmount_eq (negative : Bool) {k : Nat} (small : k < 10 ^ (28 : Nat)) :
    centAmount negative k = .ok (.finite negative k (-2)) := by
  have few := digitCount_le (by decide) small
  have plain : (Decimal.ofNat k).mul cent = .ok (.finite false k (-2)) := by
    show Decimal.fit false (k * 1) (0 + -2) = _
    rw [Nat.mul_one]
    exact Decimal.fit_cents few
  refine Except.bind_eq_ok.2 ⟨_, plain, ?_⟩
  show Decimal.fit (false != negative) (k * 1) (-2 + 0) = _
  rw [Nat.mul_one, Bool.false_bne]
  exact Decimal.fit_cents few

/-- the parts of an amount whose cents fit the working precision -/
theorem divide_eq {negative : Bool} {k : Nat} (side : x.isNegative = .ok negative)
    (cents : wholeCents x = .ok k) (small : k < 10 ^ (28 : Nat)) (pos : 0 < count) :
    divide x count = .ok ((centParts k count).map fun i => .finite negative i (-2)) := by
  have some : (count : Int) ≠ 0 := by omega
  refine Except.bind_eq_ok.2 ⟨_, side, Except.bind_eq_ok.2 ⟨_, cents, ?_⟩⟩
  rw [if_neg some, Int.toNat_natCast, Int.toNat_natCast]
  refine Except.mapM_eq_map fun i hi => centAmount_eq _ ?_
  exact (le_of_mem_centParts pos hi).trans_lt small

theorem divide_isOk (number : x.isFinite) (small : |x.value| < 10 ^ (999996 : Int))
    (pos : 0 < count) : ∃ parts, divide x count = .ok parts := by
  obtain ⟨negative, side⟩ := Decimal.exists_isNegative number
  obtain ⟨r, c, magnitude, double, cents⟩ := wholeCents_isOk number small
  have c_eq := wholeCents_eq number magnitude cents
  have some : (count : Int) ≠ 0 := by omega
  generalize limit_eq : (10 : ℚ) ^ (999996 : Int) = limit at small
  obtain ⟨parts, cut⟩ := Except.mapM_isOk.2 fun k (hk : k ∈ centParts c.toNat count) =>
    centAmount_isOk negative (k := k) (by
      have positive := abs_nonneg x.value
      rw [limit_eq]
      by_cases none : k = 0
      · rw [none, Nat.cast_zero]
        linarith only [small, positive]
      · have le := le_of_mem_centParts pos hk
        rw [c_eq, Int.toNat_natCast, Nat.le_floor_iff' none] at le
        linarith only [le, double, small, positive])
  refine ⟨parts, Except.bind_eq_ok.2 ⟨_, side, Except.bind_eq_ok.2 ⟨_, cents, ?_⟩⟩⟩
  rw [if_neg some, Int.toNat_natCast]
  exact cut

/-- **An amount is cut into its parts in cents**, each with the sign of the amount. -/
theorem divide_of_isCents (h : x.IsCents c) (small : c.natAbs < 10 ^ (15 : Nat)) (pos : 0 < count) :
    divide x count =
      .ok ((centParts c.natAbs count).map fun k => .finite (decide (c < 0)) k (-2)) :=
  divide_eq (isNegative_of_isCents h) (wholeCents_of_isCents h small) (by omega) pos

end

/-! ## the lines of a plan -/

theorem amounts_of_linesOf {start : Date} {name : String} {count : Nat} {amounts : List Decimal}
    {lines : List Line} (h : linesOf start name count amounts = .ok lines) :
    lines.map Line.amount = amounts := by
  have each := Except.map_of_mapM h (g := Line.amount) (k := Prod.fst)
  rw [each ?_, List.zipIdx_map_fst]
  rintro ⟨amount, i⟩ - line made
  obtain ⟨date, -, made⟩ := Except.bind_eq_ok.1 made
  cases made
  rfl

/-- **The lines of a divided plan carry the parts of its amount.** -/
theorem Plan.amounts_of_divide {rules : PlanRules} {x : Decimal} {c : Int} {n : Nat} {mode : Json}
    {start : Date} {name group : String} {p : Plan} (cents : x.IsCents c)
    (small : c.natAbs < 10 ^ (15 : Nat)) (pos : 0 < n)
    (divided : Mode.read rules.defaultMode mode = .ok .divide)
    (h : Plan.of rules (.decimal x) (.int n) mode start name group = .ok p) :
    p.lines.map Line.amount =
      (centParts c.natAbs n).map fun k => .finite (decide (c < 0)) k (-2) := by
  obtain ⟨-, named, y, count, parts, given, counted, cut, listed⟩ := Plan.of_ok h
  rw [divided] at named
  rw [← Except.ok.inj named] at cut
  cases Amount.read_decimal given
  have number : count = n := by
    obtain ⟨_, whole, clamped⟩ := Except.bind_eq_ok.1 counted
    cases whole
    unfold clampCount at clamped
    split at clamped
    · cases clamped
    · cases clamped; omega
  subst number
  rw [amounts_of_linesOf listed]
  exact Except.ok.inj (cut.symm.trans (divide_of_isCents cents small pos))

end Billfold
