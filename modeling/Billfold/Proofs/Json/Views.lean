import Billfold.Json.Whole
import Billfold.Json.Shown
import Billfold.Proofs.Json.Fits

/-!
# Values as numbers and as texts

* `Json.natAbs_whole_lt`   a value that was read stands for a whole number that can be written
* `Json.whole_eq_outOfRange`   only an infinite number is out of the range of whole numbers
* `Json.words_ne_empty`    a value that counts as given has a text
* `Json.text_of_words`     a value that is not a text spells no id
-/

namespace Billfold

-- powers of natural numbers are those of the core library, whatever is imported beside this module
attribute [local instance (2000)] instPowNat

/-! ## whole numbers -/

theorem Text.digitValue?_lt {c : Char} {d : Nat} (h : Text.digitValue? c = some d) : d < 10 := by
  unfold Text.digitValue? at h
  obtain ⟨nought, found, rfl⟩ := Option.map_eq_some_iff.1 h
  have range := List.find?_some found
  simp only [Bool.and_eq_true, decide_eq_true_eq] at range
  omega

theorem digitsValue?_lt {digits : List Char} {n : Nat} (h : digitsValue? digits = some n) :
    n < 10 ^ digits.length := by
  have onto : ∀ (digits : List Char) (m n : Nat),
      digits.foldlM (fun n c => (Text.digitValue? c).map (10 * n + ·)) m = some n →
      n < 10 ^ digits.length * (m + 1) := by
    intro digits
    induction digits with
    | nil =>
      intro m n h
      cases h
      rw [List.length_nil, Nat.pow_zero, Nat.one_mul]
      exact Nat.lt_succ_self m
    | cons c digits ih =>
      intro m n h
      rw [List.foldlM_cons] at h
      obtain ⟨next, value, h⟩ := Option.bind_eq_some_iff.1 h
      obtain ⟨d, digit, rfl⟩ := Option.map_eq_some_iff.1 value
      have lt := ih _ n h
      have small := Text.digitValue?_lt digit
      rw [List.length_cons, Nat.pow_succ, Nat.mul_assoc]
      exact Nat.lt_of_lt_of_le lt (Nat.mul_le_mul_left _ (by omega))
  have lt := onto digits 0 n h
  rwa [Nat.zero_add, Nat.mul_one] at lt

theorem unsignedOf?_lt {cs : List Char} {n : Nat} (h : unsignedOf? cs = some n) :
    n < 10 ^ maxWholeDigits := by
  unfold unsignedOf? at h
  obtain ⟨digits, -, h⟩ := Option.bind_eq_some_iff.1 h
  split at h
  · cases h
  · exact Nat.lt_of_lt_of_le (digitsValue?_lt h) (Nat.pow_le_pow_right (by decide) (by omega))

theorem natAbs_wholeOfText?_lt {s : List Char} {n : Int} (h : wholeOfText? s = some n) :
    n.natAbs < 10 ^ maxWholeDigits := by
  unfold wholeOfText? at h
  split at h <;>
  · obtain ⟨m, read, rfl⟩ := Option.map_eq_some_iff.1 h
    obtain ⟨k, digits, same⟩ := Option.bind_eq_some_iff.1 read
    have := unsignedOf?_lt digits
    cases same
    omega

theorem mul_two_pow_lt {m k a b c : Nat} (hm : m < 2 ^ a) (hk : k ≤ b) (hc : a + b ≤ c) :
    m * 2 ^ k < 10 ^ c := by
  have front : m < 10 ^ a := Nat.lt_of_lt_of_le hm (Nat.pow_le_pow_left (by decide) a)
  have back : 2 ^ k ≤ 10 ^ b :=
    Nat.le_trans (Nat.pow_le_pow_left (by decide) k) (Nat.pow_le_pow_right (by decide) hk)
  refine Nat.lt_of_lt_of_le ?_ (Nat.pow_le_pow_right (by decide) hc)
  rw [Nat.pow_add]
  exact Nat.mul_lt_mul_of_lt_of_le front back (Nat.pow_pos (by decide))

theorem Binary64.natAbs_truncate?_lt {x : Binary64} {n : Int} (standard : x.IsStandard)
    (h : x.truncate? = some n) : n.natAbs < 10 ^ maxWholeDigits := by
  cases x with
  | finite negative significand e =>
    obtain ⟨digits, -, most, -⟩ := standard
    have large : significand * 2 ^ e.toNat < 10 ^ maxWholeDigits :=
      mul_two_pow_lt (show significand < 2 ^ 53 from digits) (Int.toNat_le.2 most) (by decide)
    have part : (ratio significand e).1 / (ratio significand e).2 ≤ significand * 2 ^ e.toNat := by
      refine Nat.le_trans (Nat.div_le_self _ _) ?_
      unfold ratio
      split
      · exact Nat.le_refl _
      · exact Nat.le_mul_of_pos_right _ (Nat.two_pow_pos _)
    have small := Nat.lt_of_le_of_lt part large
    rw [← Option.some.inj h]
    split
    · rw [Int.natAbs_neg]
      exact small
    · exact small
  | infinite negative => cases h
  | nan => cases h

namespace Json

variable {v : Json}

theorem natAbs_whole_lt {depth : Nat} {n : Int} (fits : v.Fits depth) (h : v.whole = .ok n) :
    n.natAbs < 10 ^ maxWholeDigits := by
  cases v with
  | bool b =>
    cases h
    have small : 10 ^ 1 ≤ 10 ^ maxWholeDigits := Nat.pow_le_pow_right (by decide) (by decide)
    split <;> omega
  | int m =>
    cases h
    exact fits
  | float x =>
    simp only [whole] at h
    split at h
    · cases h
      exact Binary64.natAbs_truncate?_lt fits ‹_›
    · cases h
  | text s =>
    simp only [whole] at h
    split at h
    · cases h
      exact natAbs_wholeOfText?_lt ‹_›
    · cases h
  | _ => cases h

def IsInfinite (v : Json) : Prop := ∃ negative, v = .float (.infinite negative)

theorem whole_eq_outOfRange : v.whole = .error .outOfRange ↔ v.IsInfinite := by
  constructor
  · intro h
    cases v with
    | float x =>
      cases x with
      | finite negative significand exponent => cases h
      | infinite negative => exact ⟨negative, rfl⟩
      | nan => cases h
    | text s =>
      simp only [whole] at h
      split at h
      · cases h
      · cases h
    | _ => cases h
  · rintro ⟨negative, rfl⟩
    rfl

/-! ## texts -/

theorem plainDigits_head {d : Char} (ds : List Char) (point : Int) (digit : d.isDigit = true) :
    ∃ c rest, plainDigits (d :: ds) point = c :: rest ∧ c.isDigit = true := by
  unfold plainDigits
  dsimp only
  split
  · exact ⟨'0', _, rfl, by decide⟩
  · next positive =>
    split
    · exact ⟨d, _, rfl, digit⟩
    · obtain ⟨n, count⟩ : ∃ n, point.toNat = n + 1 := ⟨point.toNat - 1, by omega⟩
      rw [count]
      exact ⟨d, _, rfl, digit⟩

theorem scientificDigits_head (format : FloatFormat) (d : Char) (ds : List Char) (power : Int) :
    ∃ rest, scientificDigits format (d :: ds) power = d :: rest := by
  cases ds with
  | nil => exact ⟨_, rfl⟩
  | cons d' ds => exact ⟨_, rfl⟩

theorem exists_numeral_cons (n : Nat) : ∃ d ds, numeral n = d :: ds ∧ d.isDigit = true := by
  obtain ⟨d, ds, digits⟩ := List.exists_cons_of_ne_nil (numeral_ne_nil n)
  exact ⟨d, ds, digits, isDigit_of_mem_numeral (digits ▸ List.mem_cons_self)⟩

theorem text_head (format : FloatFormat) (negative : Bool) (significand : Nat) (e : Int) :
    ∃ c rest, ((Binary64.finite negative significand e).text format).toList = c :: rest ∧
      (c = '-' ∨ c.isDigit = true) := by
  rw [Binary64.text, String.toList_ofList]
  cases negative with
  | true => exact ⟨'-', _, rfl, .inl rfl⟩
  | false =>
    rw [if_neg Bool.false_ne_true]
    split
    · obtain ⟨c, rest, front, digit⟩ := plainDigits_head [] 1 (d := '0') (by decide)
      exact ⟨c, rest, front, .inr digit⟩
    · obtain ⟨d, ds, digits, digit⟩ := exists_numeral_cons (shortestDigits significand e).1
      dsimp only
      rw [digits]
      split
      · obtain ⟨c, rest, front, digit⟩ := plainDigits_head ds _ digit
        exact ⟨c, rest, front, .inr digit⟩
      · obtain ⟨rest, front⟩ := scientificDigits_head format d ds _
        exact ⟨d, rest, front, .inr digit⟩

theorem whole_head (n : Int) :
    ∃ c rest, (toString n).toList = c :: rest ∧ (c = '-' ∨ c.isDigit = true) := by
  cases n with
  | ofNat m =>
    obtain ⟨d, ds, digits, digit⟩ := exists_numeral_cons m
    have text : (toString (Int.ofNat m)).toList = numeral m := by
      simp [numeral, toString, Int.repr]
    exact ⟨d, ds, text.trans digits, .inr digit⟩
  | negSucc m =>
    have text : (toString (Int.negSucc m)).toList = '-' :: numeral (m + 1) := by
      simp [numeral, toString, Int.repr]
    exact ⟨'-', _, text, .inl rfl⟩

theorem quote_head (s : String) :
    ∃ c rest, (Text.quote s).toList = c :: rest ∧ (c = '"' ∨ c = '\'') := by
  rw [Text.quote, String.toList_ofList]
  refine ⟨_, _, rfl, ?_⟩
  unfold Text.quoteMark
  split
  · exact .inl rfl
  · exact .inr rfl

/-- what a value's text begins with, if it is not a text of its own -/
theorem words_head (v : Json) : (∃ t, v = .text t) ∨ v = .float (.infinite false) ∨
    ∃ c rest, v.words.toList = c :: rest ∧ c ≠ 'i' := by
  have front : ∀ {c : Char}, c = '-' ∨ c.isDigit = true → c ≠ 'i' := by
    rintro c digit rfl
    exact absurd digit (by decide)
  cases v with
  | text s => exact .inl ⟨s, rfl⟩
  | null => exact .inr (.inr ⟨'N', ['o', 'n', 'e'], by decide +kernel, by decide⟩)
  | bool b =>
    refine .inr (.inr ?_)
    cases b with
    | false => exact ⟨'F', ['a', 'l', 's', 'e'], by decide +kernel, by decide⟩
    | true => exact ⟨'T', ['r', 'u', 'e'], by decide +kernel, by decide⟩
  | int n =>
    obtain ⟨c, rest, text, first⟩ := whole_head n
    exact .inr (.inr ⟨c, rest, text, front first⟩)
  | float x =>
    cases x with
    | finite negative significand e =>
      obtain ⟨c, rest, text, first⟩ := text_head shownFloat negative significand e
      exact .inr (.inr ⟨c, rest, text, front first⟩)
    | infinite negative =>
      cases negative with
      | false => exact .inr (.inl rfl)
      | true => exact .inr (.inr ⟨'-', ['i', 'n', 'f'], by decide +kernel, by decide⟩)
    | nan => exact .inr (.inr ⟨'n', ['a', 'n'], by decide +kernel, by decide⟩)
  | unpaired =>
    obtain ⟨c, rest, text, first⟩ := quote_head "\ufffd"
    refine .inr (.inr ⟨c, rest, text, ?_⟩)
    rcases first with rfl | rfl <;> decide
  | list items =>
    have text : (words (.list items)).toList =
        '[' :: ((joined (shownItems items)).toList ++ [']']) := by simp [words, shown]
    exact .inr (.inr ⟨'[', _, text, by decide⟩)
  | object fields =>
    have text : (words (.object fields)).toList =
        '\x7b' :: ((joined (shownFields fields)).toList ++ ['\x7d']) := by simp [words, shown]
    exact .inr (.inr ⟨'\x7b', _, text, by decide⟩)

theorem words_ne_empty (h : v.isTruthy = true) : v.words ≠ "" := by
  rw [Ne, ← String.toList_inj, String.toList_empty]
  rcases v.words_head with ⟨s, rfl⟩ | rfl | ⟨c, rest, text, -⟩
  · intro none
    rw [← String.toList_empty, String.toList_inj] at none
    subst none
    cases h
  · decide +kernel
  · rw [text]
    exact List.cons_ne_nil c rest

theorem text_of_words {rest : List Char} (h : v.words.toList = 'i' :: 'd' :: rest) :
    ∃ t, v = .text t := by
  rcases v.words_head with text | rfl | ⟨c, more, text, other⟩
  · exact text
  · have second : (words (.float (.infinite false))).toList[1]? = some 'n' := by decide +kernel
    rw [h] at second
    cases second
  · rw [text] at h
    exact absurd (List.cons.inj h).1 other

end Json

end Billfold
