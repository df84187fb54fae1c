import Billfold.Decimal.Context
import Billfold.Proofs.Number.Digits

/-!
# Whole cents

Arithmetic on whole cents is exact as long as the digits fit the working precision.

* `Decimal.ofCents`        an amount of whole cents
* `fit_of_dvd`, `fit_cents`   a result whose lost digits are all zero is exact
* `add_ofCents`, `sum_ofCents`   sums
* `sum_parts`              a sum on one side of zero
* `toCents_eq`             which cents are rounded to themselves
* `Decimal.IsCents`        a decimal that is a whole number of cents, however it is written
-/

namespace Billfold

-- powers and zero are those of the core library, whatever is imported beside this module
attribute [local instance (2000)] instPowNat Zero.ofOfNat0

namespace Decimal

def ofCents (c : Int) : Decimal := .finite (decide (c < 0)) c.natAbs (-2)

/-! ## exact results -/

section
variable {negative : Bool} {m : Nat} {e : Int}

theorem fit_of_dvd (pos : m ≠ 0) (low : -999999 < e) (high : e + digitCount m ≤ 999999)
    (zeros : 10 ^ (digitCount m - 28) ∣ m) :
    fit negative m e =
      .ok (.finite negative (m / 10 ^ (digitCount m - 28)) (e + (digitCount m - 28 : Nat))) := by
  have one := digitCount_pos m
  have below : m < 10 ^ (28 + (digitCount m - 28)) := lt_pow_of_digitCount (by omega)
  generalize lost : digitCount m - 28 = k at *
  obtain ⟨q, rfl⟩ := zeros
  have unit : 0 < 10 ^ k := Nat.pow_pos (by decide)
  have quotient : 10 ^ k * q / 10 ^ k = q := Nat.mul_div_cancel_left q unit
  have rounded : dropDigits (10 ^ k * q) k = q := by
    unfold dropDigits
    rw [if_neg (by omega), Nat.mul_comm, roundHalfEven_mul q unit]
  have small : q ≠ 10 ^ (28 : Nat) := by
    rintro rfl
    rw [Nat.pow_add, Nat.mul_comm] at below
    exact Nat.lt_irrefl _ below
  have last : max (e + (k : Nat)) e = e + (k : Nat) := by omega
  have places : e + (k : Nat) - e = (k : Nat) := by omega
  have top : ¬ 999999 < e + digitCount (10 ^ k * q) - 1 := by omega
  have bottom : ¬ e + digitCount (10 ^ k * q) - 1 < -999999 := by omega
  rw [quotient]
  unfold fit fitIn Context.working Context.tiny
  dsimp only
  rw [if_neg pos, if_neg top, if_neg bottom, lost, last, places, Int.toNat_natCast, rounded,
    if_neg small]

theorem fit_exact (pos : m ≠ 0) (low : -999999 < e) (high : e + digitCount m ≤ 999999)
    (few : digitCount m ≤ 28) : fit negative m e = .ok (.finite negative m e) := by
  have none : digitCount m - 28 = 0 := by omega
  have zeros : 10 ^ (digitCount m - 28) ∣ m := by
    rw [none]
    exact Nat.one_dvd m
  rw [fit_of_dvd pos low high zeros, none, Nat.pow_zero, Nat.div_one, Int.ofNat_zero, Int.add_zero]

theorem fit_cents (few : digitCount m ≤ 28) :
    fit negative m (-2) = .ok (.finite negative m (-2)) := by
  by_cases zero : m = 0
  · subst zero
    rfl
  · exact fit_exact zero (by decide) (by omega) few

end

/-! ## sums -/

theorem addAligned_cents {a b : Int} (small : digitCount (a + b).natAbs ≤ 28) :
    addAligned (decide (a < 0)) a.natAbs (decide (b < 0)) b.natAbs (-2) =
      .ok (ofCents (a + b)) := by
  have exact_ : fit (decide (a + b < 0)) (a + b).natAbs (-2) = .ok (ofCents (a + b)) :=
    fit_cents small
  unfold addAligned
  by_cases same : decide (a < 0) = decide (b < 0)
  · have sum : a.natAbs + b.natAbs = (a + b).natAbs := by
      have := decide_eq_decide.1 same
      omega
    have sign : decide (a < 0) = decide (a + b < 0) := by
      have := decide_eq_decide.1 same
      exact decide_eq_decide.2 (by omega)
    rw [if_pos same, sum, sign]
    exact exact_
  · have apart : ¬ (a < 0 ↔ b < 0) := fun h => same (decide_eq_decide.2 h)
    rw [if_neg same]
    by_cases more : b.natAbs < a.natAbs
    · have difference : a.natAbs - b.natAbs = (a + b).natAbs := by omega
      have sign : decide (a < 0) = decide (a + b < 0) := decide_eq_decide.2 (by omega)
      rw [if_pos more, difference, sign]
      exact exact_
    · rw [if_neg more]
      by_cases less : a.natAbs < b.natAbs
      · have difference : b.natAbs - a.natAbs = (a + b).natAbs := by omega
        have sign : decide (b < 0) = decide (a + b < 0) := decide_eq_decide.2 (by omega)
        rw [if_pos less, difference, sign]
        exact exact_
      · have none : a + b = 0 := by omega
        rw [if_neg less, none]
        rfl

theorem fit_ofCents {a : Int} (small : digitCount a.natAbs ≤ 28) :
    fit (decide (a < 0)) a.natAbs (-2) = .ok (ofCents a) := fit_cents small

theorem add_ofCents {a b : Int} (small : digitCount a.natAbs ≤ 28)
    (small' : digitCount b.natAbs ≤ 28) (small'' : digitCount (a + b).natAbs ≤ 28) :
    add (ofCents a) (ofCents b) = .ok (ofCents (a + b)) := by
  unfold add
  simp only [ofCents]
  rw [if_pos (Int.le_refl _)]
  unfold addFinite
  dsimp only
  by_cases none : a.natAbs = 0
  · have zero : a = 0 := Int.natAbs_eq_zero.1 none
    rw [if_pos none]
    by_cases none' : b.natAbs = 0
    · have zero' : b = 0 := Int.natAbs_eq_zero.1 none'
      rw [if_pos none', zero, zero']
      exact fit_ofCents (a := 0) (by decide +kernel)
    · rw [if_neg none', zero, Int.zero_add]
      exact fit_ofCents small'
  · rw [if_neg none]
    by_cases none' : b.natAbs = 0
    · have zero' : b = 0 := Int.natAbs_eq_zero.1 none'
      have places :
          min ((-2 : Int) - -2).toNat (Context.working.digits - digitCount a.natAbs) = 0 :=
        Nat.zero_min _
      rw [if_pos none', places, Nat.pow_zero, Nat.mul_one, zero', Int.add_zero]
      exact fit_ofCents small
    · have one := digitCount_pos b.natAbs
      have seen : ¬ -2 + (digitCount b.natAbs : Int) - 1 <
          -2 + min (-1) ((digitCount a.natAbs : Int) - Context.working.digits - 2) := by
        omega
      have aligned : ((-2 : Int) - -2).toNat = 0 := by decide
      rw [if_neg none', if_neg seen, aligned, Nat.pow_zero, Nat.mul_one]
      exact addAligned_cents small''

theorem zero_add_ofCents {a : Int} (small : digitCount a.natAbs ≤ 28) :
    add zero (ofCents a) = .ok (ofCents a) := by
  unfold add zero
  simp only [ofCents]
  rw [if_pos (by decide)]
  unfold addFinite
  dsimp only
  rw [if_pos rfl]
  by_cases none : a.natAbs = 0
  · have zero : a = 0 := Int.natAbs_eq_zero.1 none
    rw [if_pos none, zero]
    exact fit_ofCents (a := 0) (by decide +kernel)
  · rw [if_neg none]
    exact fit_ofCents small

theorem foldlM_add_ofCents {cs : List Int} {a : Int}
    (small : a.natAbs + (cs.map Int.natAbs).sum < 10 ^ (28 : Nat)) :
    (cs.map ofCents).foldlM add (ofCents a) = .ok (ofCents (a + cs.sum)) := by
  induction cs generalizing a with
  | nil =>
    rw [List.sum_nil, Int.add_zero]
    rfl
  | cons c cs ih =>
    rw [List.map_cons, List.sum_cons] at small
    have few {n : Nat} (h : n < 10 ^ (28 : Nat)) : digitCount n ≤ 28 := digitCount_le (by decide) h
    have first : add (ofCents a) (ofCents c) = .ok (ofCents (a + c)) :=
      add_ofCents (few (by omega)) (few (by omega)) (few (by omega))
    rw [List.map_cons, List.foldlM_cons, first, List.sum_cons, ← Int.add_assoc]
    exact ih (by omega)

/-- **A sum of cents is exact**, from left to right and whatever the signs are, as long as the
magnitudes together fit the working precision. -/
theorem sum_ofCents {cs : List Int} (some : cs ≠ [])
    (small : (cs.map Int.natAbs).sum < 10 ^ (28 : Nat)) :
    sum (cs.map ofCents) = .ok (ofCents cs.sum) := by
  cases cs with
  | nil => exact absurd rfl some
  | cons c cs =>
    rw [List.map_cons, List.sum_cons] at small
    have first : add zero (ofCents c) = .ok (ofCents c) :=
      zero_add_ofCents (digitCount_le (by decide) (by omega))
    unfold sum
    rw [List.map_cons, List.foldlM_cons, first, List.sum_cons]
    exact foldlM_add_ofCents small

/-! ## sums on one side of zero -/

section
variable {negative : Bool} {a k : Nat}

-- a part that is zero may have a sign, and a sum that is zero has none
theorem add_part (few : digitCount (a + k) ≤ 28) :
    add (finite (negative && a != 0) a (-2)) (finite negative k (-2)) =
      .ok (finite (negative && a + k != 0) (a + k) (-2)) := by
  unfold add
  dsimp only
  rw [if_pos (Int.le_refl _)]
  unfold addFinite
  dsimp only
  by_cases none : a = 0
  · subst none
    rw [if_pos rfl]
    by_cases none' : k = 0
    · subst none'
      cases negative <;> rfl
    · rw [if_neg none', Nat.zero_add, bne_iff_ne.2 none', Bool.and_true]
      exact fit_cents (by rwa [Nat.zero_add] at few)
  · rw [if_neg none, bne_iff_ne.2 none, Bool.and_true, bne_iff_ne.2 (by omega : a + k ≠ 0),
      Bool.and_true]
    by_cases none' : k = 0
    · have places : min ((-2 : Int) - -2).toNat (Context.working.digits - digitCount a) = 0 :=
        Nat.zero_min _
      rw [if_pos none', places, Nat.pow_zero, Nat.mul_one, none', Nat.add_zero]
      exact fit_cents (by rwa [none', Nat.add_zero] at few)
    · have one := digitCount_pos k
      have aligned : ((-2 : Int) - -2).toNat = 0 := by decide
      rw [if_neg none', if_neg (by omega), aligned, Nat.pow_zero, Nat.mul_one]
      unfold addAligned
      rw [if_pos rfl]
      exact fit_cents few

theorem foldlM_add_parts {ks : List Nat} (small : a + ks.sum < 10 ^ (28 : Nat)) :
    (ks.map fun k => finite negative k (-2)).foldlM add (finite (negative && a != 0) a (-2)) =
      .ok (finite (negative && a + ks.sum != 0) (a + ks.sum) (-2)) := by
  induction ks generalizing a with
  | nil => rfl
  | cons k ks ih =>
    rw [List.sum_cons, ← Nat.add_assoc] at small ⊢
    rw [List.map_cons, List.foldlM_cons, add_part (digitCount_le (by decide) (by omega))]
    exact ih small

/-- **A sum of cents on one side of zero is exact**, even where a zero among them has a sign. -/
theorem sum_parts {ks : List Nat} (some : ks ≠ []) (small : ks.sum < 10 ^ (28 : Nat)) :
    sum (ks.map fun k => finite negative k (-2)) =
      .ok (finite (negative && ks.sum != 0) ks.sum (-2)) := by
  cases ks with
  | nil => exact absurd rfl some
  | cons k ks =>
    have first : add zero (finite negative k (-2)) = .ok (finite (negative && k != 0) k (-2)) := by
      by_cases none : k = 0
      · subst none
        cases negative <;> rfl
      · rw [bne_iff_ne.2 none, Bool.and_true]
        rw [List.sum_cons] at small
        unfold add zero
        dsimp only
        rw [if_pos (by decide)]
        unfold addFinite
        dsimp only
        rw [if_pos rfl, if_neg none]
        exact fit_cents (digitCount_le (by decide) (by omega))
    rw [List.sum_cons] at small ⊢
    unfold sum
    rw [List.map_cons, List.foldlM_cons, first]
    exact foldlM_add_parts small

end

/-! ## rounding to cents -/

theorem toCents_eq (negative : Bool) (k : Nat) :
    toCents (finite negative k (-2)) =
      if digitCount k ≤ 28 then .ok (finite negative k (-2)) else .error .decimalInvalid := by
  unfold toCents
  dsimp only
  by_cases none : k = 0
  · subst none
    rw [if_pos rfl, if_pos (by rw [digitCount_zero]; decide)]
  · have digits : -2 + (digitCount k : Int) + 2 = digitCount k := by omega
    have places : ((-2 : Int) + 2).toNat = 0 := by decide
    rw [if_neg none, digits, if_pos (Int.le_refl _), places, Nat.pow_zero, Nat.mul_one]
    by_cases few : digitCount k ≤ 28
    · have fits : ¬ Context.working.digits < digitCount k := Nat.not_lt.2 few
      rw [if_pos few, if_neg (by omega), if_neg fits]
    · have more : (Context.working.digits : Int) < digitCount k := by
        show (28 : Int) < _
        omega
      rw [if_neg few, if_pos more]

theorem toCents_ofCents {a : Int} (small : digitCount a.natAbs ≤ 28) :
    toCents (ofCents a) = .ok (ofCents a) :=
  (toCents_eq _ _).trans (if_pos small)

/-! ## whole numbers of cents -/

def digits : Decimal → Nat
  | finite _ coefficient _ => digitCount coefficient
  | _ => 0

/-- a whole number of cents, in no more digits than the working precision has -/
structure IsCents (x : Decimal) (c : Int) : Prop where
  same : x.sameValue (ofCents c)
  digits : x.digits ≤ 28

variable {x : Decimal} {c : Int}

theorem IsCents.cases (h : x.IsCents c) :
    ∃ negative m e, x = .finite negative m e ∧ digitCount m ≤ 28 ∧
      ((m = 0 ∧ c = 0) ∨ (m ≠ 0 ∧ c ≠ 0 ∧ negative = decide (c < 0) ∧
        e + 2 + digitCount m = digitCount c.natAbs ∧
        m * 10 ^ (e + 2).toNat = c.natAbs * 10 ^ (-2 - e).toNat)) := by
  obtain ⟨same, few⟩ := h
  cases x with
  | infinite => cases same
  | nan => cases same
  | finite negative m e =>
    refine ⟨negative, m, e, rfl, few, ?_⟩
    unfold sameValue ofCents sameMagnitude at same
    obtain ⟨same, sign⟩ := Bool.and_eq_true_iff.1 same
    by_cases none : m = 0 ∨ c.natAbs = 0
    · rw [if_pos none, beq_iff_eq] at same
      exact .inl ⟨by omega, by omega⟩
    · rw [if_neg none] at same
      split at same
      · next top =>
        have some : (m == 0) = false := beq_eq_false_iff_ne.2 (by omega)
        rw [some, Bool.or_false, beq_iff_eq] at sign
        refine .inr ⟨by omega, by omega, sign, by omega, ?_⟩
        rw [show e + 2 = e - -2 from by omega]
        exact beq_iff_eq.1 same
      · cases same

theorem IsCents.neg (h : x.IsCents c) (small : c.natAbs < 10 ^ (15 : Nat)) :
    ∃ y, x.neg = .ok y ∧ y.IsCents (-c) := by
  obtain ⟨negative, m, e, rfl, few, ⟨rfl, rfl⟩ | ⟨pos, some, sign, top, same⟩⟩ := h.cases
  · refine ⟨_, rfl, ?_, ?_⟩
    · unfold sameValue ofCents sameMagnitude
      simp
    · show digitCount 0 ≤ 28
      rw [digitCount_zero]
      decide
  · have one := digitCount_pos m
    have count := digitCount_le (by decide) small
    have one' := digitCount_pos c.natAbs
    have exact_ : fit (!negative && m != 0) m e = .ok (.finite (!negative) m e) := by
      have some : (m != 0) = true := bne_iff_ne.2 pos
      rw [some, Bool.and_true]
      exact fit_exact pos (by omega) (by omega) few
    refine ⟨_, exact_, ?_, few⟩
    have sign' : (!negative) = decide (-c < 0) := by
      rw [sign, ← decide_not]
      exact decide_eq_decide.2 (by omega)
    unfold sameValue ofCents sameMagnitude
    dsimp only
    rw [Int.natAbs_neg, if_neg (by omega), if_pos (by omega), sign', beq_self_eq_true,
      Bool.true_or, Bool.and_true]
    exact beq_iff_eq.2 (by rw [show e - -2 = e + 2 from by omega]; exact same)

end Decimal

end Billfold
