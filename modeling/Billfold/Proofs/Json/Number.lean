import Billfold.Json.Printer
import Billfold.Json.Reader
import Billfold.Proofs.Number.Shortest

/-!
# Numbers in JSON text read back

* `NumberText`              a number as text, in its parts
* `readNumber_eq`           the reader finds the parts and their value
-/

namespace Billfold

-- powers of natural numbers are those of the core library, whatever is imported beside this module
attribute [local instance (2000)] instPowNat

/-! ## digits that come next -/

/-- the text does not go on with a digit -/
def NoDigitNext (rest : List Char) : Prop := ∀ c ∈ rest.head?, c.isDigit = false

theorem noDigitNext_cons {c : Char} {rest : List Char} (h : c.isDigit = false) :
    NoDigitNext (c :: rest) := by
  intro c' h'
  cases h'
  exact h

theorem takeWhile_digits {digits rest : List Char} (all : ∀ c ∈ digits, c.isDigit = true)
    (next : NoDigitNext rest) : (digits ++ rest).takeWhile Char.isDigit = digits := by
  rw [List.takeWhile_append_of_pos all]
  cases rest with
  | nil => rw [List.takeWhile_nil, List.append_nil]
  | cons c rest => rw [List.takeWhile_cons, next c rfl, if_neg (by decide), List.append_nil]

theorem dropWhile_digits {digits rest : List Char} (all : ∀ c ∈ digits, c.isDigit = true)
    (next : NoDigitNext rest) : (digits ++ rest).dropWhile Char.isDigit = rest := by
  rw [List.dropWhile_append_of_pos all]
  cases rest with
  | nil => rfl
  | cons c rest => rw [List.dropWhile_cons, next c rfl, if_neg (by decide)]

namespace Json

/-- a number as text, in its parts; without a fraction and an exponent it is a whole number -/
structure NumberText where
  negative : Bool
  whole : List Char
  fraction : List Char
  /-- the sign and the digits of the exponent -/
  exponent : Option (Bool × List Char)

namespace NumberText

def fractionChars (t : NumberText) : List Char :=
  if t.fraction = [] then [] else '.' :: t.fraction

def exponentChars (t : NumberText) : List Char :=
  match t.exponent with
  | none => []
  | some (negative, digits) => 'e' :: (if negative then '-' else '+') :: digits

def chars (t : NumberText) : List Char :=
  (if t.negative then ['-'] else []) ++ t.whole ++ t.fractionChars ++ t.exponentChars

def power (t : NumberText) : Int :=
  match t.exponent with
  | none => 0
  | some (negative, digits) => if negative then -(ofNumeral digits : Int) else ofNumeral digits

def value (t : NumberText) : Json :=
  if t.fraction = [] ∧ t.exponent = none then
    .int (if t.negative then -(ofNumeral t.whole : Int) else ofNumeral t.whole)
  else
    .float (Binary64.ofDecimal t.negative (ofNumeral (t.whole ++ t.fraction))
      (t.power - t.fraction.length))

/-- the parts are digits where they must be, and whole numbers are not too long -/
structure Good (t : NumberText) : Prop where
  whole_ne : t.whole ≠ []
  whole_digits : ∀ c ∈ t.whole, c.isDigit = true
  no_zero : t.whole.head? = some '0' → t.whole = ['0']
  fraction_digits : ∀ c ∈ t.fraction, c.isDigit = true
  exponent_ne : ∀ negative digits, t.exponent = some (negative, digits) → digits ≠ []
  exponent_digits : ∀ negative digits, t.exponent = some (negative, digits) →
    ∀ c ∈ digits, c.isDigit = true
  short : t.fraction = [] ∧ t.exponent = none → t.whole.length ≤ maxWholeDigits

/-- no digit comes next, and nothing that a number can go on with -/
def Stop (rest : List Char) : Prop := ∀ c ∈ rest.head?, c = ',' ∨ c = ']' ∨ c = '\x7d'

variable {t : NumberText} {rest : List Char}

theorem Stop.noDigitNext (h : Stop rest) : NoDigitNext rest := by
  intro c hc
  rcases h c hc with rfl | rfl | rfl <;> decide

theorem exponentPart?_eq (good : t.Good) (stop : Stop rest) :
    exponentPart? (t.exponentChars ++ rest) =
      t.exponent.map fun _ => (t.power, t.exponentChars.length) := by
  unfold exponentChars power
  cases h : t.exponent with
  | none =>
    cases rest with
    | nil => rfl
    | cons c rest =>
      have : ¬(c = 'e' ∨ c = 'E') := by
        rcases stop c rfl with rfl | rfl | rfl <;> decide
      simp [exponentPart?, this]
  | some exponent =>
    obtain ⟨negative, digits⟩ := exponent
    have found := takeWhile_digits (good.exponent_digits _ _ h) stop.noDigitNext
    have some_digit : digits.isEmpty = false := by
      have := good.exponent_ne _ _ h
      simpa using this
    cases negative <;>
      simp [exponentPart?, found, some_digit] <;> omega

theorem exponent_next (stop : Stop rest) :
    NoDigitNext (t.exponentChars ++ rest) ∧ (t.exponentChars ++ rest).head? ≠ some '.' := by
  unfold exponentChars
  cases t.exponent with
  | none =>
    refine ⟨stop.noDigitNext, fun dot => ?_⟩
    rcases stop '.' dot with h | h | h <;> cases h
  | some exponent =>
    refine ⟨noDigitNext_cons (by decide), ?_⟩
    show some 'e' ≠ some '.'
    decide

theorem fractionDigits_eq (good : t.Good) (stop : Stop rest) :
    fractionDigits (t.fractionChars ++ (t.exponentChars ++ rest)) = t.fraction := by
  obtain ⟨next, no_dot⟩ := exponent_next (t := t) stop
  unfold fractionChars
  split
  · rename_i none
    rw [List.nil_append, none]
    unfold fractionDigits
    split
    · rename_i h
      rw [h] at no_dot
      exact absurd rfl no_dot
    · rfl
  · exact takeWhile_digits good.fraction_digits next

theorem fraction_next (stop : Stop rest) :
    NoDigitNext (t.fractionChars ++ (t.exponentChars ++ rest)) := by
  unfold fractionChars
  split
  · exact (exponent_next stop).1
  · exact noDigitNext_cons (by decide)

theorem wholeDigits_eq (good : t.Good) {next : List Char} (stop : NoDigitNext next) :
    wholeDigits (t.whole ++ next) = t.whole := by
  unfold wholeDigits
  split
  · rename_i h
    have zero : t.whole.head? = some '0' := by
      have some_digit := good.whole_ne
      cases hw : t.whole with
      | nil => exact absurd hw some_digit
      | cons c cs =>
        rw [hw] at h
        cases h
        rfl
    exact (good.no_zero zero).symm
  · exact takeWhile_digits good.whole_digits stop

theorem fractionChars_length :
    (if t.fraction.isEmpty then 0 else 1 + t.fraction.length) = t.fractionChars.length := by
  unfold fractionChars
  cases t.fraction with
  | nil => rfl
  | cons c cs => exact Nat.add_comm _ _

theorem sign_eq (good : t.Good) :
    ((t.chars ++ rest).head? == some '-') = t.negative := by
  unfold chars
  cases t.negative with
  | true => rfl
  | false =>
    have digits := good.whole_digits
    cases whole : t.whole with
    | nil => exact absurd whole good.whole_ne
    | cons c cs =>
      have ne : c ≠ '-' := by
        rintro rfl
        have := digits '-' (by rw [whole]; exact List.mem_cons_self)
        revert this
        decide
      show (some c == some '-') = false
      simpa using ne

/-- **The reader finds the parts of a number and their value.** -/
theorem readNumber_eq (good : t.Good) (stop : Stop rest) (position : Nat) :
    readNumber ⟨position, t.chars ++ rest⟩ =
      .ok (t.value, ⟨position + t.chars.length, rest⟩) := by
  have next := fraction_next (t := t) stop
  have digits : (t.chars ++ rest).drop (if t.negative then 1 else 0) =
      t.whole ++ (t.fractionChars ++ (t.exponentChars ++ rest)) := by
    unfold chars
    cases t.negative <;> simp
  have length : (if t.negative then 1 else 0) + t.whole.length + t.fractionChars.length +
      ((t.exponent.map fun _ => (t.power, t.exponentChars.length)).map Prod.snd).getD 0 =
      t.chars.length := by
    have : ((t.exponent.map fun _ => (t.power, t.exponentChars.length)).map Prod.snd).getD 0 =
        t.exponentChars.length := by
      unfold exponentChars
      cases t.exponent <;> rfl
    rw [this]
    unfold chars
    cases t.negative <;> simp <;> omega
  have power : ((t.exponent.map fun _ => (t.power, t.exponentChars.length)).map Prod.fst).getD 0 =
      t.power := by
    unfold power
    cases t.exponent <;> rfl
  have some_digit : t.whole.isEmpty = false := by simpa using good.whole_ne
  unfold readNumber
  dsimp only
  rw [sign_eq good, digits, wholeDigits_eq good next, some_digit, List.drop_left,
    fractionDigits_eq good stop, fractionChars_length, List.drop_left, exponentPart?_eq good stop,
    length, Cursor.skip_append rfl, power, if_neg (by decide)]
  unfold value
  by_cases whole : t.fraction = [] ∧ t.exponent = none
  · have short := good.short whole
    rw [if_pos whole, whole.1, whole.2]
    simp only [List.isEmpty_nil, Option.map_none, Option.isNone_none, Bool.and_self, if_true]
    rw [if_neg (by omega)]
  · rw [if_neg whole, if_neg]
    simpa [Option.isNone_iff_eq_none] using whole

/-! ## whole numbers -/

def ofInt (n : Int) : NumberText := ⟨decide (n < 0), numeral n.natAbs, [], none⟩

theorem ofInt_chars (n : Int) : (ofInt n).chars = (toString n).toList := by
  unfold ofInt chars fractionChars exponentChars
  cases n with
  | ofNat m =>
    simp [numeral, toString, Int.repr]
  | negSucc m =>
    rw [decide_eq_true (by omega)]
    simp [numeral, toString, Int.repr]

theorem ofInt_value (n : Int) : (ofInt n).value = .int n := by
  unfold ofInt value
  dsimp only
  rw [if_pos ⟨rfl, rfl⟩, ofNumeral_numeral]
  congr 1
  split
  · have := of_decide_eq_true ‹_›
    omega
  · have := of_decide_eq_false (Bool.eq_false_iff.2 ‹_›)
    omega

theorem ofInt_good {n : Int} (h : n.natAbs < 10 ^ maxWholeDigits) : (ofInt n).Good where
  whole_ne := numeral_ne_nil _
  whole_digits := fun _ hc => isDigit_of_mem_numeral hc
  no_zero := by
    intro zero
    unfold ofInt at *
    rw [numeral_head zero]
    rfl
  fraction_digits := fun _ hc => absurd hc List.not_mem_nil
  exponent_ne := fun _ _ h => by cases h
  exponent_digits := fun _ _ h => by cases h
  short := fun _ => (Nat.length_toDigits_le_iff (by decide) (by decide)).2 h

/-! ## the layouts of floating-point numbers -/

def plain (negative : Bool) (digits : List Char) (point : Int) : NumberText :=
  if point ≤ 0 then ⟨negative, ['0'], List.replicate (-point).toNat '0' ++ digits, none⟩
  else if digits.length ≤ point.toNat then
    ⟨negative, digits ++ List.replicate (point.toNat - digits.length) '0', ['0'], none⟩
  else ⟨negative, digits.take point.toNat, digits.drop point.toNat, none⟩

def scientific (negative : Bool) (digits : List Char) (power : Int) : NumberText :=
  ⟨negative, digits.take 1, digits.drop 1, some (decide (power < 0),
    padded 10 jsonFloat.exponentDigits power.natAbs)⟩

/-- digits that a layout is made for: a zero in front stands alone -/
structure Digits (digits : List Char) (point : Int) : Prop where
  some_digit : digits ≠ []
  all : ∀ c ∈ digits, c.isDigit = true
  no_zero : digits.head? = some '0' → digits = ['0'] ∧ point = 1

variable {negative : Bool} {digits : List Char} {point : Int}

theorem plain_chars (h : digits ≠ []) :
    (plain negative digits point).chars =
      (if negative then ['-'] else []) ++ plainDigits digits point := by
  unfold plain plainDigits
  split
  · have : List.replicate (-point).toNat '0' ++ digits ≠ [] := by simp [h]
    simp [chars, fractionChars, exponentChars, h]
  · dsimp only
    split
    · simp [chars, fractionChars, exponentChars]
    · have : digits.drop point.toNat ≠ [] := by
        rw [Ne, List.drop_eq_nil_iff]
        assumption
      simp [chars, fractionChars, exponentChars, this]

theorem scientific_chars (h : digits ≠ []) :
    (scientific negative digits point).chars =
      (if negative then ['-'] else []) ++ scientificDigits jsonFloat digits point := by
  unfold scientific scientificDigits chars fractionChars exponentChars
  cases digits with
  | nil => exact absurd rfl h
  | cons d rest => cases rest <;> simp

theorem isDigit_of_mem_zeros {n : Nat} {c : Char} (h : c ∈ List.replicate n '0') :
    c.isDigit = true := by
  rw [List.eq_of_mem_replicate h]
  rfl

theorem isDigit_zero : ∀ c ∈ ['0'], c.isDigit = true := List.forall_mem_singleton.2 rfl

theorem good_of_fraction {whole fraction : List Char} (some_digit : whole ≠ [])
    (all : ∀ c ∈ whole, c.isDigit = true) (no_zero : whole.head? = some '0' → whole = ['0'])
    (some_fraction : fraction ≠ []) (all_fraction : ∀ c ∈ fraction, c.isDigit = true) :
    Good ⟨negative, whole, fraction, none⟩ where
  whole_ne := some_digit
  whole_digits := all
  no_zero := no_zero
  fraction_digits := all_fraction
  exponent_ne := fun _ _ h => by cases h
  exponent_digits := fun _ _ h => by cases h
  short := fun h => absurd h.1 some_fraction

theorem plain_good (h : Digits digits point) : (plain negative digits point).Good := by
  obtain ⟨some_digit, all, no_zero⟩ := h
  unfold plain
  split
  · refine good_of_fraction (List.cons_ne_nil _ _) isDigit_zero (fun _ => rfl)
      (by simp [some_digit]) ?_
    intro c hc
    rcases List.mem_append.1 hc with hc | hc
    · exact isDigit_of_mem_zeros hc
    · exact all c hc
  · split
    · refine good_of_fraction (by simp [some_digit]) ?_ ?_ (List.cons_ne_nil _ _) isDigit_zero
      · intro c hc
        rcases List.mem_append.1 hc with hc | hc
        · exact all c hc
        · exact isDigit_of_mem_zeros hc
      · intro zero
        have front : digits.head? = some '0' := by
          cases digits with
          | nil => exact absurd rfl some_digit
          | cons d rest => exact zero
        obtain ⟨rfl, rfl⟩ := no_zero front
        rfl
    · refine good_of_fraction ?_ (fun c hc => all c (List.mem_of_mem_take hc)) ?_ ?_
        (fun c hc => all c (List.mem_of_mem_drop hc))
      · rw [Ne, List.take_eq_nil_iff]
        rintro (zero | none)
        · omega
        · exact some_digit none
      · intro zero
        rw [List.head?_take, if_neg (by omega)] at zero
        obtain ⟨rfl, rfl⟩ := no_zero zero
        rfl
      · rw [Ne, List.drop_eq_nil_iff]
        assumption

theorem scientific_good (h : Digits digits point) :
    (scientific negative digits (point - 1)).Good where
  whole_ne := by
    show digits.take 1 ≠ []
    rw [Ne, List.take_eq_nil_iff]
    rintro (zero | none)
    · cases zero
    · exact h.some_digit none
  whole_digits := fun c hc => h.all c (List.mem_of_mem_take hc)
  no_zero := by
    show (digits.take 1).head? = some '0' → digits.take 1 = ['0']
    intro zero
    rw [List.head?_take, if_neg (by decide)] at zero
    rw [(h.no_zero zero).1]
    rfl
  fraction_digits := fun c hc => h.all c (List.mem_of_mem_drop hc)
  exponent_ne := by
    intro _ _ same
    cases same
    simp [padded]
  exponent_digits := by
    intro _ _ same c hc
    cases same
    rcases List.mem_append.1 hc with hc | hc
    · exact isDigit_of_mem_zeros hc
    · exact isDigit_of_mem_numeral hc
  short := fun h => by cases h.2

theorem plain_value (negative : Bool) (h : Digits digits point) :
    ∃ coefficient place, (plain negative digits point).value =
        .float (Binary64.ofDecimal negative coefficient place) ∧
      (coefficient : ℚ) * 10 ^ place = ofNumeral digits * 10 ^ (point - digits.length) := by
  have some_digit := h.some_digit
  unfold plain value
  split
  · refine ⟨ofNumeral digits, point - digits.length, ?_, rfl⟩
    rw [if_neg (by simp [some_digit])]
    congr 2
    · rw [ofNumeral_append, ofNumeral_append, ofNumeral_zeros, show ofNumeral ['0'] = 0 from rfl]
      simp
    · simp [power]
      omega
  · split
    · refine ⟨_, _, if_neg (by simp), ?_⟩
      dsimp only [power]
      obtain ⟨k, zeros⟩ : ∃ k : Nat, point = digits.length + k :=
        ⟨point.toNat - digits.length, by omega⟩
      rw [show point.toNat - digits.length = k by omega, zeros, ofNumeral_append,
        ofNumeral_append, ofNumeral_zeros, show ofNumeral ['0'] = 0 from rfl,
        List.length_replicate, add_sub_cancel_left, zpow_natCast]
      norm_num
      ring
    · refine ⟨ofNumeral digits, point - digits.length, ?_, rfl⟩
      rw [if_neg (by simp; omega), List.take_append_drop]
      congr 2
      simp [power]
      omega

theorem scientific_value (h : Digits digits point) :
    (scientific negative digits (point - 1)).value =
      .float (Binary64.ofDecimal negative (ofNumeral digits) (point - digits.length)) := by
  unfold scientific value
  rw [if_neg (by simp), List.take_append_drop]
  congr 2
  dsimp only [power]
  rw [ofNumeral_padded, List.length_drop]
  have := List.length_pos_iff.2 h.some_digit
  simp only [decide_eq_true_eq]
  split <;> omega

/-! ## floating-point numbers -/

variable {significand : Nat} {e : Int}

/-- the parts of a finite number in JSON text -/
def ofFinite (negative : Bool) (significand : Nat) (e : Int) : NumberText :=
  if significand = 0 then plain negative ['0'] 1
  else
    let shortest := shortestDigits significand e
    let digits := numeral shortest.1
    let point := digits.length + shortest.2
    if jsonFloat.plainFrom < point ∧ point ≤ jsonFloat.plainBelow then plain negative digits point
    else scientific negative digits (point - 1)

theorem ofFinite_chars :
    (ofFinite negative significand e).chars =
      ((Binary64.finite negative significand e).text jsonFloat).toList := by
  have signed : ∀ cs : List Char, (if negative then ['-'] else []) ++ cs =
      if negative then '-' :: cs else cs := by
    intro cs
    cases negative <;> rfl
  unfold ofFinite Binary64.text
  rw [String.toList_ofList, ← signed]
  split
  · exact plain_chars (by decide)
  · dsimp only
    split
    · exact plain_chars (numeral_ne_nil _)
    · exact scientific_chars (numeral_ne_nil _)

theorem digits_numeral {n : Nat} (h : n ≠ 0) (point : Int) : Digits (numeral n) point where
  some_digit := numeral_ne_nil n
  all := fun _ hc => isDigit_of_mem_numeral hc
  no_zero := fun zero => absurd (numeral_head zero) h

theorem digits_zero : Digits ['0'] 1 where
  some_digit := List.cons_ne_nil _ _
  all := isDigit_zero
  no_zero := fun _ => ⟨rfl, rfl⟩

theorem ofFinite_good (standard : (Binary64.finite negative significand e).IsStandard) :
    (ofFinite negative significand e).Good := by
  unfold ofFinite
  split
  · exact plain_good digits_zero
  · have digits := digits_numeral (shortestDigits_ne_zero standard ‹_›)
      ((numeral (shortestDigits significand e).1).length + (shortestDigits significand e).2)
    dsimp only
    split
    · exact plain_good digits
    · exact scientific_good digits

/-- **A number in JSON text reads back as itself.** -/
theorem ofFinite_value (standard : (Binary64.finite negative significand e).IsStandard) :
    (ofFinite negative significand e).value = .float (.finite negative significand e) := by
  unfold ofFinite
  split
  · rename_i zero
    obtain ⟨coefficient, place, value, same⟩ := plain_value negative digits_zero
    have none : coefficient = 0 := by
      rw [show ofNumeral ['0'] = 0 from rfl, Nat.cast_zero, zero_mul] at same
      exact Nat.cast_eq_zero.1 ((mul_eq_zero_iff_right (by positivity)).1 same)
    rw [value, none, zero]
    have least := standard.2.2.2 (by rw [zero]; decide)
    rw [least]
    rfl
  · rename_i some_digit
    have digits := digits_numeral (shortestDigits_ne_zero standard some_digit)
      ((numeral (shortestDigits significand e).1).length + (shortestDigits significand e).2)
    dsimp only
    split
    · obtain ⟨coefficient, place, value, same⟩ := plain_value negative digits
      rw [ofNumeral_numeral, add_sub_cancel_left] at same
      rw [value, ofDecimal_shortest standard some_digit same]
    · rw [scientific_value digits, ofNumeral_numeral, add_sub_cancel_left,
        ofDecimal_shortest standard some_digit rfl]

end NumberText

end Json

end Billfold
