import Billfold.Decimal.Text
import Billfold.Proofs.Json.Number
import Billfold.Proofs.Number.Digits

/-!
# Decimals in text read back

The text of a decimal shows its sign, every digit of its coefficient and where the last of them
stands, so reading it gives the same decimal, not only the same number.

* `Decimal.IsWritable`      the exponents are small enough for a text
* `Decimal.ofText?_text`    the text of such a decimal reads as the decimal
* `Decimal.isWritable_iff`  only such decimals have a text
-/

namespace Billfold.Decimal

/-- the exponents of the first and the last digit can be written in a text -/
def IsWritable : Decimal → Prop
  | finite _ coefficient exponent => inTextRange coefficient exponent = true
  | infinite _ => True
  | nan .. => True

/-! ## the plain text -/

/-- an ASCII character that reading keeps as it is -/
def IsPlain (c : Char) : Prop :=
  ascii? c = some c ∧ Text.isBlank c = false ∧ c ≠ '_'

theorem plain?_eq {s : List Char} (h : ∀ c ∈ s, IsPlain c) : plain? s = some s := by
  unfold plain?
  rw [Text.trim_eq_self fun c hc => (h c hc).2.1]
  induction s with
  | nil => rfl
  | cons c s ih =>
    obtain ⟨kept, -, other⟩ := h c List.mem_cons_self
    have rest := ih fun c' hc' => h c' (List.mem_cons_of_mem _ hc')
    rw [List.filter_cons_of_pos (by simpa using other), List.mapM_cons, kept, rest]
    rfl

theorem isPlain_of_isDigit {c : Char} (h : c.isDigit = true) : IsPlain c := by
  simp only [Char.isDigit, ge_iff_le, Bool.and_eq_true, decide_eq_true_eq] at h
  have least : 48 ≤ c.toNat := h.1
  have greatest : c.toNat ≤ 57 := h.2
  refine ⟨if_pos (by omega), ?_, ?_⟩
  · simp [Text.isBlank, Text.isWhite]
    omega
  · rintro rfl
    exact absurd greatest (by decide)

def signs : List Char := ['.', 'E', '+', '-', 'I', 'n', 'f', 'i', 't', 'y', 'N', 'a', 's']

theorem isPlain_of_mem {c : Char} (h : c ∈ signs) : IsPlain c := by
  have all : signs.all fun c =>
      decide (ascii? c = some c ∧ Text.isBlank c = false ∧ c ≠ '_') := by decide +kernel
  have plain := of_decide_eq_true (List.all_eq_true.1 all c h)
  exact plain

theorem mem_signs_of_all {cs : List Char} {c : Char} (all : cs.all signs.contains = true)
    (h : c ∈ cs) : c ∈ signs :=
  List.contains_iff_mem.1 (List.all_eq_true.1 all c h)

theorem isPlain_signedNumeral {n : Int} {c : Char} (h : c ∈ signedNumeral n) : IsPlain c := by
  rcases List.mem_cons.1 h with rfl | h
  · split <;> exact isPlain_of_mem (by decide +kernel)
  · exact isPlain_of_isDigit (isDigit_of_mem_numeral h)

theorem isPlain_pointed {digits : List Char} {point : Int} {c : Char}
    (all : ∀ c ∈ digits, c.isDigit = true) (h : c ∈ pointed digits point) : IsPlain c := by
  unfold pointed at h
  split at h
  · simp only [List.cons_append, List.mem_cons, List.mem_append] at h
    rcases h with rfl | rfl | h | h
    · exact isPlain_of_isDigit rfl
    · exact isPlain_of_mem (by decide +kernel)
    · exact isPlain_of_isDigit (Json.NumberText.isDigit_of_mem_zeros h)
    · exact isPlain_of_isDigit (all c h)
  · split at h
    · exact isPlain_of_isDigit (all c h)
    · simp only [List.mem_append, List.mem_cons] at h
      rcases h with h | rfl | h
      · exact isPlain_of_isDigit (all c (List.mem_of_mem_take h))
      · exact isPlain_of_mem (by decide +kernel)
      · exact isPlain_of_isDigit (all c (List.mem_of_mem_drop h))

theorem isPlain_printFinite {coefficient : Nat} {exponent : Int} {c : Char}
    (h : c ∈ printFinite coefficient exponent) : IsPlain c := by
  have all : ∀ c ∈ numeral coefficient, c.isDigit = true := fun _ hc => isDigit_of_mem_numeral hc
  unfold printFinite at h
  dsimp only at h
  split at h
  · exact isPlain_pointed all h
  · rcases List.mem_append.1 h with h | h
    · exact isPlain_pointed all h
    · rcases List.mem_cons.1 h with rfl | h
      · exact isPlain_of_mem (by decide +kernel)
      · exact isPlain_signedNumeral h

theorem isPlain_printMagnitude {x : Decimal} {c : Char} (h : c ∈ x.printMagnitude) :
    IsPlain c := by
  cases x with
  | finite negative coefficient exponent => exact isPlain_printFinite h
  | infinite negative =>
    have all : "Infinity".toList.all signs.contains = true := by decide +kernel
    exact isPlain_of_mem (mem_signs_of_all all h)
  | nan signaling negative payload =>
    have all : (if signaling then "sNaN" else "NaN").toList.all signs.contains = true := by
      cases signaling <;> decide +kernel
    rcases List.mem_append.1 h with h | h
    · exact isPlain_of_mem (mem_signs_of_all all h)
    · split at h
      · cases h
      · exact isPlain_of_isDigit (isDigit_of_mem_numeral h)

theorem isPlain_print {x : Decimal} {c : Char} (h : c ∈ x.print) : IsPlain c := by
  unfold print at h
  split at h
  · rcases List.mem_cons.1 h with rfl | h
    · exact isPlain_of_mem (by decide +kernel)
    · exact isPlain_printMagnitude h
  · exact isPlain_printMagnitude h

/-! ## digits with a point and an exponent -/

/-- the digits behind the point, with the point if there are any -/
def fractionText (fraction : List Char) : List Char :=
  if fraction = [] then [] else '.' :: fraction

/-- what is left behind the digits: no further digit and no point -/
structure IsTail (tail : List Char) : Prop where
  no_digit : NoDigitNext tail
  no_point : tail.head? ≠ some '.'

theorem isTail_nil : IsTail [] where
  no_digit := fun _ h => absurd h (Option.not_mem_none _)
  no_point := by decide

theorem isTail_exponent (rest : List Char) : IsTail ('E' :: rest) where
  no_digit := noDigitNext_cons (by decide)
  no_point := by
    show some 'E' ≠ some '.'
    decide

theorem exponent?_signedNumeral (n : Int) : exponent? ('E' :: signedNumeral n) = some n := by
  have some_digit : (numeral n.natAbs).isEmpty = false := by simpa using numeral_ne_nil _
  have all : (numeral n.natAbs).all Char.isDigit = true :=
    List.all_eq_true.2 fun _ => isDigit_of_mem_numeral
  unfold signedNumeral
  simp only [exponent?, or_true, if_true]
  by_cases below : n < 0
  · rw [if_pos below]
    simp only [splitSign, some_digit, all, ofNumeral_numeral, Bool.not_true, Bool.or_self,
      Bool.false_eq_true, if_false, if_true, Option.some.injEq]
    omega
  · rw [if_neg below]
    simp only [splitSign, some_digit, all, ofNumeral_numeral, Bool.not_true, Bool.or_self,
      Bool.false_eq_true, if_false, Option.some.injEq]
    omega

/-- a text of digits, perhaps with a point among them and an exponent behind, with the digits of
the coefficient and the place of the last of them -/
inductive Writes : List Char → Nat → Int → Prop where
  | parts {whole fraction tail : List Char} {power : Int} (some_digit : whole ≠ [])
    (all : ∀ c ∈ whole, c.isDigit = true) (all_fraction : ∀ c ∈ fraction, c.isDigit = true)
    (stop : IsTail tail) (exponent : exponent? tail = some power) :
    Writes (whole ++ (fractionText fraction ++ tail)) (ofNumeral (whole ++ fraction))
      (power - fraction.length)

variable {negative : Bool} {s digits tail : List Char} {coefficient : Nat} {exponent : Int}

/-- **The reader finds the digits around the point and the exponent behind them.** -/
theorem readFinite?_of_writes (h : Writes s coefficient exponent)
    (range : inTextRange coefficient exponent = true) :
    readFinite? negative s = some (finite negative coefficient exponent) := by
  obtain ⟨some_digit, all, all_fraction, stop, power⟩ := h
  rename_i whole fraction tail _
  have not_empty : whole.isEmpty = false := by simpa using some_digit
  unfold readFinite?
  by_cases none : fraction = []
  · subst none
    rw [List.append_nil, List.length_nil, Nat.cast_zero, Int.sub_zero] at range ⊢
    rw [fractionText, if_pos rfl, List.nil_append, takeWhile_digits all stop.no_digit,
      dropWhile_digits all stop.no_digit]
    dsimp only
    split
    · exact absurd rfl stop.no_point
    · simp [not_empty, power, range]
  · have text : fractionText fraction = '.' :: fraction := if_neg none
    have next : NoDigitNext ('.' :: (fraction ++ tail)) := noDigitNext_cons (by decide)
    rw [text, List.cons_append, takeWhile_digits all next, dropWhile_digits all next]
    simp only [takeWhile_digits all_fraction stop.no_digit,
      dropWhile_digits all_fraction stop.no_digit, not_empty, power, range, Bool.false_and,
      Bool.false_eq_true, if_false, if_true, Option.bind_eq_bind, Option.bind_some]

theorem exists_head_of_writes (h : Writes s coefficient exponent) :
    ∃ c rest, s = c :: rest ∧ c.isDigit = true := by
  obtain ⟨some_digit, all, -, -, -⟩ := h
  rename_i whole _ _ _
  cases whole with
  | nil => exact absurd rfl some_digit
  | cons c rest => exact ⟨c, rest ++ _, rfl, all c List.mem_cons_self⟩

theorem writes_zeros (zeros : Nat) (some_digit : digits ≠ [])
    (all : ∀ c ∈ digits, c.isDigit = true) (stop : IsTail tail)
    (power : exponent? tail = some exponent) :
    Writes ('0' :: '.' :: List.replicate zeros '0' ++ digits ++ tail) (ofNumeral digits)
      (exponent - (digits.length + zeros)) := by
  have value : ofNumeral (['0'] ++ (List.replicate zeros '0' ++ digits)) = ofNumeral digits := by
    rw [ofNumeral_append, ofNumeral_append, ofNumeral_zeros, show ofNumeral ['0'] = 0 from rfl,
      Nat.mul_zero, Nat.mul_zero, Nat.zero_add, Nat.zero_add]
  have places : ((List.replicate zeros '0' ++ digits).length : Int) = digits.length + zeros := by
    rw [List.length_append, List.length_replicate]
    omega
  have behind : ∀ c ∈ List.replicate zeros '0' ++ digits, c.isDigit = true := by
    intro c hc
    rcases List.mem_append.1 hc with hc | hc
    · exact Json.NumberText.isDigit_of_mem_zeros hc
    · exact all c hc
  have text : fractionText (List.replicate zeros '0' ++ digits) =
      '.' :: (List.replicate zeros '0' ++ digits) := if_neg (by simp [some_digit])
  have parts :=
    Writes.parts (List.cons_ne_nil '0' []) Json.NumberText.isDigit_zero behind stop power
  rw [value, places, text] at parts
  exact parts

/-- the point stands behind the first `n` digits, if it is not the last -/
theorem writes_cut {n : Nat} (before : digits.take n ≠ [])
    (all : ∀ c ∈ digits, c.isDigit = true) (within : n ≤ digits.length) (stop : IsTail tail)
    (power : exponent? tail = some exponent) :
    Writes ((if digits.length ≤ n then digits else digits.take n ++ '.' :: digits.drop n) ++ tail)
      (ofNumeral digits) (exponent - (digits.length - n)) := by
  have places : ((digits.drop n).length : Int) = digits.length - n := by
    rw [List.length_drop]
    omega
  have behind : ∀ c ∈ digits.drop n, c.isDigit = true :=
    fun c hc => all c (List.mem_of_mem_drop hc)
  have parts := Writes.parts before (fun c hc => all c (List.mem_of_mem_take hc)) behind stop power
  rw [List.take_append_drop, places, ← List.append_assoc] at parts
  split
  · rename_i long
    rwa [List.drop_eq_nil_of_le long, List.take_of_length_le long, fractionText, if_pos rfl,
      List.append_nil] at parts
  · rename_i short
    rwa [fractionText, if_neg (by rw [List.drop_eq_nil_iff]; exact short)] at parts

theorem writes_pointed (point : Int) (some_digit : digits ≠ [])
    (all : ∀ c ∈ digits, c.isDigit = true) (within : point ≤ digits.length) (stop : IsTail tail)
    (power : exponent? tail = some exponent) :
    Writes (pointed digits point ++ tail) (ofNumeral digits)
      (exponent - (digits.length - point)) := by
  unfold pointed
  by_cases small : point ≤ 0
  · have places : exponent - (digits.length - point) =
        exponent - (digits.length + (-point).toNat) := by omega
    rw [if_pos small, places]
    exact writes_zeros (-point).toNat some_digit all stop power
  · have before : digits.take point.toNat ≠ [] := by
      rw [Ne, List.take_eq_nil_iff]
      rintro (zero | none)
      · omega
      · exact some_digit none
    have places : exponent - (digits.length - point) =
        exponent - (digits.length - point.toNat) := by omega
    rw [if_neg small, places]
    exact writes_cut before all (by omega) stop power

/-- **Either layout of a number writes its coefficient and its exponent.** -/
theorem writes_printFinite (coefficient : Nat) (exponent : Int) :
    Writes (printFinite coefficient exponent) coefficient exponent := by
  have some_digit := numeral_ne_nil coefficient
  have all : ∀ c ∈ numeral coefficient, c.isDigit = true := fun _ hc => isDigit_of_mem_numeral hc
  have one : 1 ≤ (numeral coefficient).length := List.length_pos_iff.2 some_digit
  unfold printFinite
  dsimp only
  split
  · have none : exponent? [] = some 0 := rfl
    have writes := writes_pointed (exponent + (numeral coefficient).length) some_digit all
      (by omega) isTail_nil none
    rwa [ofNumeral_numeral, List.append_nil, show (0 : Int) - ((numeral coefficient).length -
      (exponent + (numeral coefficient).length)) = exponent by omega] at writes
  · have writes := writes_pointed 1 some_digit all (by omega) (isTail_exponent _)
      (exponent?_signedNumeral (exponent + (numeral coefficient).length - 1))
    rwa [ofNumeral_numeral, show exponent + (numeral coefficient).length - 1 -
      ((numeral coefficient).length - 1) = exponent by omega] at writes

/-! ## all decimals -/

theorem toLower_of_isDigit {c : Char} (h : c.isDigit = true) : c.toLower = c := by
  simp only [Char.isDigit, ge_iff_le, Bool.and_eq_true, decide_eq_true_eq] at h
  have greatest : c.toNat ≤ 57 := h.2
  unfold Char.toLower
  rw [dif_neg]
  rintro ⟨least, -⟩
  have : 65 ≤ c.toNat := least
  omega

theorem readUnsigned?_of_digit {c : Char} {rest : List Char} (h : c.isDigit = true) :
    readUnsigned? negative (c :: rest) = readFinite? negative (c :: rest) := by
  -- no word for an infinity or for no number begins with a digit
  have ne : c ≠ 'i' ∧ c ≠ 'n' ∧ c ≠ 's' := by
    refine ⟨?_, ?_, ?_⟩ <;> (rintro rfl; exact absurd h (by decide))
  unfold readUnsigned?
  rw [List.map_cons, toLower_of_isDigit h]
  split
  · exact absurd (List.cons.inj ‹_›).1 ne.1
  · exact absurd (List.cons.inj ‹_›).1 ne.1
  · exact absurd (List.cons.inj ‹_›).1 ne.2.1
  · exact absurd (List.cons.inj ‹_›).1 ne.2.2
  · rfl

theorem readUnsigned?_word (signaling negative : Bool) {digits : List Char}
    (all : ∀ c ∈ digits, c.isDigit = true) :
    readUnsigned? negative ((if signaling then "sNaN" else "NaN").toList ++ digits) =
      some (nan signaling negative (ofNumeral digits)) := by
  have lower : digits.map Char.toLower = digits := by
    rw [List.map_congr_left fun c hc => toLower_of_isDigit (all c hc), List.map_id']
  have read : ∀ signaling, readPayload? signaling negative digits =
      some (nan signaling negative (ofNumeral digits)) := by
    intro signaling
    exact if_pos (List.all_eq_true.2 all)
  cases signaling with
  | true =>
    show readPayload? true negative (digits.map Char.toLower) = _
    rw [lower, read]
  | false =>
    show readPayload? false negative (digits.map Char.toLower) = _
    rw [lower, read]

theorem readUnsigned?_printMagnitude {x : Decimal} (writable : x.IsWritable) :
    readUnsigned? x.hasSign x.printMagnitude = some x := by
  cases x with
  | finite negative coefficient exponent =>
    obtain ⟨c, rest, text, digit⟩ := exists_head_of_writes (writes_printFinite coefficient exponent)
    show readUnsigned? negative (printFinite coefficient exponent) = _
    rw [text, readUnsigned?_of_digit digit, ← text]
    exact readFinite?_of_writes (writes_printFinite coefficient exponent) writable
  | infinite negative => rfl
  | nan signaling negative payload =>
    by_cases none : payload = 0
    · show readUnsigned? negative ((if signaling then "sNaN" else "NaN").toList ++
        (if payload = 0 then [] else numeral payload)) = _
      rw [none, if_pos rfl]
      exact readUnsigned?_word signaling negative fun c hc => absurd hc List.not_mem_nil
    · have all : ∀ c ∈ numeral payload, c.isDigit = true := fun c hc => isDigit_of_mem_numeral hc
      have word := readUnsigned?_word signaling negative all
      rw [ofNumeral_numeral] at word
      show readUnsigned? negative ((if signaling then "sNaN" else "NaN").toList ++
        (if payload = 0 then [] else numeral payload)) = _
      rw [if_neg none]
      exact word

theorem splitSign_printMagnitude (x : Decimal) :
    splitSign x.printMagnitude = (false, x.printMagnitude) := by
  cases x with
  | finite negative coefficient exponent =>
    obtain ⟨c, rest, text, digit⟩ := exists_head_of_writes (writes_printFinite coefficient exponent)
    show splitSign (printFinite coefficient exponent) = (false, printFinite coefficient exponent)
    rw [text]
    unfold splitSign
    split
    · exact absurd digit ((List.cons.inj ‹_›).1 ▸ by decide)
    · exact absurd digit ((List.cons.inj ‹_›).1 ▸ by decide)
    · rfl
  | infinite negative => rfl
  | nan signaling negative payload => cases signaling <;> rfl

/-- **The text of a decimal reads as the decimal**, with its sign, its digits and its exponent. -/
theorem ofText?_text {x : Decimal} (writable : x.IsWritable) : ofText? x.text = some x := by
  have read := readUnsigned?_printMagnitude writable
  have plain := plain?_eq fun c (hc : c ∈ x.print) => isPlain_print hc
  unfold ofText? read? text
  rw [String.toList_ofList, plain]
  unfold print
  cases sign : x.hasSign with
  | true =>
    rw [sign] at read
    exact read
  | false =>
    rw [sign] at read
    show readUnsigned? (splitSign x.printMagnitude).1 (splitSign x.printMagnitude).2 = some x
    rw [splitSign_printMagnitude]
    exact read

theorem isWritable_of_readFinite? {s : List Char} {x : Decimal}
    (h : readFinite? negative s = some x) : x.IsWritable := by
  unfold readFinite? at h
  dsimp only at h
  -- with a point or without one
  split at h
  all_goals
    split at h
    · cases h
    · obtain ⟨power, -, h⟩ := Option.bind_eq_some_iff.1 h
      split at h
      · rename_i range
        cases h
        exact range
      · cases h

theorem isWritable_of_ofText? {s : String} {x : Decimal} (h : ofText? s = some x) :
    x.IsWritable := by
  have payload : ∀ {signaling negative digits}, readPayload? signaling negative digits = some x →
      x.IsWritable := by
    intro signaling negative digits h
    unfold readPayload? at h
    split at h
    · cases h
      trivial
    · cases h
  obtain ⟨plain, -, h⟩ := Option.bind_eq_some_iff.1 h
  dsimp only at h
  unfold readUnsigned? at h
  split at h
  · cases h
    trivial
  · cases h
    trivial
  · exact payload h
  · exact payload h
  · exact isWritable_of_readFinite? h

theorem isWritable_iff {x : Decimal} : x.IsWritable ↔ ∃ s, ofText? s = some x := by
  constructor
  · intro writable
    exact ⟨x.text, ofText?_text writable⟩
  · rintro ⟨s, h⟩
    exact isWritable_of_ofText? h

end Billfold.Decimal
