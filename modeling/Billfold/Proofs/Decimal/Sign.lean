import Billfold.Book.Money
import Billfold.Decimal.Context

/-!
# Signs

Rounding can make an amount zero, and it never takes an amount to the other side of zero; neither
does the book.

* `Decimal.sign`      the sign of a number
* `Decimal.Follows`   zero, or on the side of another number
* `fit_ok`, `sign_of_neg`, `sign_of_abs`, `sign_of_mul`   the sign of a result
* `follows_of_settle?`   the sign of what comes back from the book
* `sameValue_self`, `sign_of_sameValue`   numbers of one value have one sign
-/

namespace Billfold

-- powers of natural numbers are those of the core library, whatever is imported beside this module
attribute [local instance (2000)] instPowNat

namespace Decimal

/-- the sign of a number; what is no number has none -/
def sign : Decimal → Int
  | finite negative coefficient _ =>
    if coefficient = 0 then 0 else if negative then -1 else 1
  | infinite negative => if negative then -1 else 1
  | nan .. => 0

def Follows (y x : Decimal) : Prop := y.sign = 0 ∨ y.sign = x.sign

variable {x y z : Decimal} {negative a b : Bool} {m n : Nat} {e f : Int}

theorem Follows.refl (x : Decimal) : x.Follows x := .inr rfl

theorem sign_of_pos (pos : m ≠ 0) : (finite negative m e).sign = if negative then -1 else 1 :=
  if_neg pos

/-- digits may be lost on the way, and the sign stays -/
theorem follows_finite (zero : m = 0 → n = 0) :
    (finite negative n f).Follows (finite negative m e) := by
  by_cases none : n = 0
  · subst none
    exact .inl rfl
  · right
    rw [sign_of_pos none, sign_of_pos fun h => none (zero h)]

theorem isNegative_eq (h : x.isNegative = .ok b) : b = decide (x.sign < 0) := by
  cases x with
  | finite negative m e =>
    cases h
    by_cases none : m = 0
    · subst none
      cases negative <;> rfl
    · rw [sign_of_pos none, bne_iff_ne.2 none]
      cases negative <;> rfl
  | infinite negative => cases negative <;> cases h <;> rfl
  | nan => cases h

theorem eq_of_sign_zero (h : x.isNegative = .ok b) (zero : x.sign = 0) :
    ∃ negative e, x = finite negative 0 e := by
  cases x with
  | finite negative m e =>
    by_cases none : m = 0
    · exact ⟨negative, e, by rw [none]⟩
    · rw [sign_of_pos none] at zero
      cases negative <;> cases zero
  | infinite negative => cases negative <;> cases zero
  | nan => cases h

/-! ## results -/

/-- a result keeps the sign that it is given, and nothing becomes of zero -/
theorem fit_ok (h : fit negative m e = .ok y) :
    ∃ n f, y = finite negative n f ∧ (m = 0 → n = 0) := by
  unfold fit fitIn at h
  split at h
  · cases h
    exact ⟨0, _, rfl, fun _ => rfl⟩
  · next pos =>
    dsimp only at h
    split at h
    · cases h
    · generalize (max _ _ : Int) = last at h
      generalize dropDigits _ _ = rounded at h
      split at h
      · split at h
        · cases h
        · cases h
          exact ⟨_, _, rfl, fun zero => absurd zero pos⟩
      · cases h
        exact ⟨_, _, rfl, fun zero => absurd zero pos⟩

theorem follows_of_fit (h : fit negative m e = .ok y) : y.Follows (finite negative m e) := by
  obtain ⟨n, f, rfl, zero⟩ := fit_ok h
  exact follows_finite zero

/-- **The opposite of a number is on the other side**, unless it is rounded to zero. -/
theorem sign_of_neg (h : x.neg = .ok y) : y.sign = 0 ∨ y.sign = -x.sign := by
  cases x with
  | finite negative m e =>
    rcases follows_of_fit h with zero | same
    · exact .inl zero
    · right
      rw [same]
      by_cases none : m = 0
      · subst none
        rfl
      · rw [sign_of_pos none, sign_of_pos none, bne_iff_ne.2 none]
        cases negative <;> rfl
  | infinite negative =>
    cases h
    cases negative <;> exact .inr rfl
  | nan signaling negative payload =>
    cases signaling with
    | true => cases h
    | false =>
      cases h
      exact .inl rfl

/-- a magnitude is not below zero, and that of zero is zero -/
theorem sign_of_abs (h : x.abs = .ok y) : 0 ≤ y.sign ∧ (x.sign = 0 → y.sign = 0) := by
  cases x with
  | finite negative m e =>
    obtain ⟨n, f, rfl, zero⟩ := fit_ok h
    by_cases none : n = 0
    · subst none
      exact ⟨Int.le_refl 0, fun _ => rfl⟩
    · have some : m ≠ 0 := fun h => none (zero h)
      rw [sign_of_pos none, sign_of_pos some]
      refine ⟨by decide, fun h => ?_⟩
      cases negative <;> cases h
  | infinite negative =>
    cases h
    refine ⟨by decide, fun h => ?_⟩
    cases negative <;> cases h
  | nan signaling negative payload =>
    cases signaling with
    | true => cases h
    | false =>
      cases h
      exact ⟨Int.le_refl 0, fun _ => rfl⟩

theorem sign_of_mul (h : mul (finite a m e) (finite b n f) = .ok y) :
    ∃ k g, y = finite (a != b) k g ∧ (m = 0 → k = 0) := by
  obtain ⟨k, g, rfl, zero⟩ := fit_ok h
  refine ⟨k, g, rfl, fun none => zero ?_⟩
  rw [none, Nat.zero_mul]

/-! ## equal values -/

theorem sameValue_self (number : x.isNaN = false) : x.sameValue x = true := by
  cases x with
  | finite negative m e =>
    unfold sameValue sameMagnitude
    dsimp only
    rw [beq_self_eq_true negative, Bool.true_or, Bool.and_true]
    split
    · exact beq_self_eq_true m
    · rw [if_pos rfl]
      exact beq_self_eq_true _
  | infinite negative => exact beq_self_eq_true negative
  | nan => cases number

theorem sign_of_sameValue (h : x.sameValue y = true) : x.sign = y.sign := by
  cases x with
  | finite a m e =>
    cases y with
    | finite b n f =>
      unfold sameValue sameMagnitude at h
      obtain ⟨same, side⟩ := Bool.and_eq_true_iff.1 h
      by_cases none : m = 0 ∨ n = 0
      · rw [if_pos none, beq_iff_eq] at same
        subst same
        have zero : m = 0 := by omega
        subst zero
        rfl
      · have some : (m == 0) = false := beq_eq_false_iff_ne.2 (by omega)
        rw [some, Bool.or_false, beq_iff_eq] at side
        rw [sign_of_pos (by omega), sign_of_pos (by omega), side]
    | _ => cases h
  | infinite a =>
    cases y with
    | infinite b =>
      cases beq_iff_eq.1 h
      rfl
    | _ => cases h
  | nan => cases h

end Decimal

/-! ## in the book -/

theorem Binary64.ofRatio_sign (negative : Bool) (num den : Nat) :
    (∃ m e, ofRatio negative num den = .finite negative m e) ∨
      ofRatio negative num den = .infinite negative := by
  unfold ofRatio
  split
  · exact .inl ⟨_, _, rfl⟩
  · dsimp only
    generalize (if roundHalfEven _ _ = 2 * leastFull then _ else _) = rounded
    split
    · exact .inr rfl
    · exact .inl ⟨_, _, rfl⟩

theorem Binary64.ofDecimal_sign (negative : Bool) {m : Nat} (pos : m ≠ 0) (e : Int) :
    (∃ n f, ofDecimal negative m e = .finite negative n f) ∨
      ofDecimal negative m e = .infinite negative := by
  unfold ofDecimal
  rw [if_neg pos]
  dsimp only
  split
  · exact .inr rfl
  · split
    · exact .inl ⟨_, _, rfl⟩
    · split
      · exact ofRatio_sign _ _ _
      · exact ofRatio_sign _ _ _

theorem sign_bookedAmount_zero (negative : Bool) (f : Int) :
    (bookedAmount (.finite negative 0 f)).sign = 0 := by
  have nothing (d : Nat) : roundHalfEven 0 d = 0 := by
    unfold roundHalfEven
    simp
  unfold bookedAmount Binary64.ratio
  dsimp only
  split
  · rw [Nat.zero_mul, Nat.mul_zero, nothing]
    rfl
  · rw [Nat.mul_zero, nothing]
    rfl

theorem follows_of_storedAmount? {negative : Bool} {m : Nat} {e : Int} {kept : Binary64}
    (pos : m ≠ 0) (h : storedAmount? (.finite negative m e) = some kept) :
    (bookedAmount kept).Follows (.finite negative m e) := by
  have stored := (Option.some.inj h).symm
  rcases Binary64.ofDecimal_sign negative pos e with ⟨n, f, number⟩ | number
  · rw [number] at stored
    cases n with
    | zero =>
      rw [stored]
      exact .inl (sign_bookedAmount_zero false f)
    | succ n =>
      rw [stored]
      exact Decimal.follows_finite fun zero => absurd zero pos
  · rw [number] at stored
    rw [stored]
    right
    rw [Decimal.sign_of_pos pos]
    rfl

/-- **What comes back from the book is zero, or on the side of what was put there.** -/
theorem follows_of_settle? {x y : Decimal} (h : settle? x = some y) : y.Follows x := by
  obtain ⟨kept, stored, rfl⟩ := Option.map_eq_some_iff.1 h
  cases x with
  | finite negative m e =>
    by_cases none : m = 0
    · subst none
      cases stored
      exact .inl (sign_bookedAmount_zero false _)
    · exact follows_of_storedAmount? none stored
  | infinite negative =>
    cases stored
    exact .refl _
  | nan => cases stored

end Billfold
