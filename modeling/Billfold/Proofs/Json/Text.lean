import Billfold.Json.Printer
import Billfold.Json.Reader

/-!
# Texts in JSON read back

* `Json.codeUnit?_padded`   four hexadecimal digits read back as the code unit
* `Json.readChars_escaped`  a character reads back, escaped or not
* `Json.readText_escaped`   and so does a text
* `Json.readText_half`      half of a pair is read as such
-/

namespace Billfold.Json

/-! ## code units -/

theorem hexDigit?_digitChar : ∀ d < 16, hexDigit? (Nat.digitChar d) = some d := by decide

theorem padded_succ (width n : Nat) :
    padded 16 (width + 2) n = padded 16 (width + 1) (n / 16) ++ [Nat.digitChar (n % 16)] := by
  unfold padded
  dsimp only
  by_cases small : n < 16
  · rw [Nat.toDigits_of_lt_base small, Nat.div_eq_of_lt small, Nat.mod_eq_of_lt small,
      Nat.toDigits_zero, List.length_singleton, List.length_singleton, ← List.replicate_succ']
    rfl
  · rw [Nat.toDigits_of_base_le (by decide) (Nat.not_lt.1 small), List.length_append,
      List.length_singleton, ← List.append_assoc]
    congr 3
    omega

theorem padded_four {n : Nat} (h : n < 65536) :
    padded 16 4 n = [Nat.digitChar (n / 4096), Nat.digitChar (n / 256 % 16),
      Nat.digitChar (n / 16 % 16), Nat.digitChar (n % 16)] := by
  have front : padded 16 1 (n / 16 / 16 / 16) = [Nat.digitChar (n / 16 / 16 / 16)] := by
    unfold padded
    rw [Nat.toDigits_of_lt_base (by omega)]
    rfl
  rw [padded_succ, padded_succ, padded_succ, front]
  simp only [Nat.div_div_eq_div_mul]
  rfl

theorem codeUnit?_padded {n : Nat} (h : n < 65536) {rest : List Char} (more : rest ≠ []) :
    codeUnit? (padded 16 4 n ++ rest) = some n := by
  cases rest with
  | nil => exact absurd rfl more
  | cons c rest =>
    rw [padded_four h]
    simp only [List.cons_append, List.nil_append, codeUnit?]
    rw [hexDigit?_digitChar _ (by omega), hexDigit?_digitChar _ (by omega),
      hexDigit?_digitChar _ (by omega), hexDigit?_digitChar _ (by omega)]
    show some _ = some _
    congr 1
    omega

/-! ## characters -/

theorem escapedUnit_length {n : Nat} (h : n < 65536) : (escapedUnit n).length = 6 := by
  unfold escapedUnit
  rw [padded_four h]
  rfl

variable {start fuel position unit : Nat} {digits tail : List Char} {read : List (Option Char)}

theorem readChars_u (h : codeUnit? digits = some unit) :
    readChars start (fuel + 1) ⟨position, '\\' :: 'u' :: digits⟩ read =
      match if Text.isFirstHalf unit then secondHalf? (digits.drop 4) else none with
      | some second =>
        readChars start fuel (Cursor.mk position ('\\' :: 'u' :: digits) |>.skip 12)
          (some (.ofNat (Text.pairPoint unit second)) :: read)
      | none =>
        readChars start fuel (Cursor.mk position ('\\' :: 'u' :: digits) |>.skip 6)
          (charOfUnit? unit :: read) := by
  simp only [readChars]
  generalize codeUnit? digits = found at h
  subst h
  rfl

theorem readChars_letter {e c : Char} (h : escapeOf? e = some c) :
    readChars start (fuel + 1) ⟨position, '\\' :: e :: tail⟩ read =
      readChars start fuel ⟨position + 2, tail⟩ (some c :: read) := by
  have ne : e ≠ 'u' := by
    rintro rfl
    cases h
  simp only [readChars]
  rw [h]
  rfl

theorem readChars_plain {c : Char} (quote : c ≠ '"') (backslash : c ≠ '\\') (h : 0x20 ≤ c.toNat) :
    readChars start (fuel + 1) ⟨position, c :: tail⟩ read =
      readChars start fuel ⟨position + 1, tail⟩ (some c :: read) := by
  simp only [readChars]
  rw [if_neg (Nat.not_lt.2 h)]
  rfl

theorem readChars_unit (h : unit < 65536) (more : tail ≠ [])
    (single : Text.isFirstHalf unit = true → secondHalf? tail = none) :
    readChars start (fuel + 1) ⟨position, escapedUnit unit ++ tail⟩ read =
      readChars start fuel ⟨position + 6, tail⟩ (charOfUnit? unit :: read) := by
  have behind : (padded 16 4 unit ++ tail).drop 4 = tail := by
    rw [padded_four h]
    rfl
  have none : (if Text.isFirstHalf unit then secondHalf? tail else none) = none := by
    split
    · exact single ‹_›
    · rfl
  rw [← Cursor.skip_append (escapedUnit_length h)]
  show readChars start (fuel + 1) ⟨position, '\\' :: 'u' :: (padded 16 4 unit ++ tail)⟩ read = _
  rw [readChars_u (codeUnit?_padded h more), behind, none]
  rfl

theorem readChars_pair {second : Nat} (h : Text.isFirstHalf unit = true)
    (h' : Text.isSecondHalf second = true) (more : tail ≠ []) :
    readChars start (fuel + 1) ⟨position, escapedUnit unit ++ escapedUnit second ++ tail⟩ read =
      readChars start fuel ⟨position + 12, tail⟩
        (some (Char.ofNat (Text.pairPoint unit second)) :: read) := by
  have first_lt : unit < 65536 := by
    simp only [Text.isFirstHalf, Bool.and_eq_true, decide_eq_true_eq] at h
    omega
  have second_lt : second < 65536 := by
    simp only [Text.isSecondHalf, Bool.and_eq_true, decide_eq_true_eq] at h'
    omega
  have behind : (padded 16 4 unit ++ (escapedUnit second ++ tail)).drop 4 =
      escapedUnit second ++ tail := by
    rw [padded_four first_lt]
    rfl
  have found : secondHalf? (escapedUnit second ++ tail) = some second := by
    show (codeUnit? (padded 16 4 second ++ tail)).bind _ = _
    rw [codeUnit?_padded second_lt more]
    exact if_pos h'
  have length : (escapedUnit unit ++ escapedUnit second).length = 12 := by
    rw [List.length_append, escapedUnit_length first_lt, escapedUnit_length second_lt]
  rw [← Cursor.skip_append length, List.append_assoc]
  show readChars start (fuel + 1)
    ⟨position, '\\' :: 'u' :: (padded 16 4 unit ++ (escapedUnit second ++ tail))⟩ read = _
  rw [readChars_u (codeUnit?_padded first_lt (by simp [escapedUnit])), behind, if_pos h, found]
  rfl

theorem charOfUnit?_toNat (c : Char) : charOfUnit? c.toNat = some c := by
  have valid : c.toNat.isValidChar := c.valid
  rw [charOfUnit?, if_pos valid, Char.ofNat_toNat]

/-- **A character reads back, escaped or not.** -/
theorem readChars_escapedChar (c : Char) (more : tail ≠ []) :
    readChars start (fuel + 1) ⟨position, escapedChar c ++ tail⟩ read =
      readChars start fuel ⟨position + (escapedChar c).length, tail⟩ (some c :: read) := by
  have valid : c.toNat < 0xd800 ∨ 0xdfff < c.toNat ∧ c.toNat < 0x110000 := c.valid
  unfold escapedChar
  by_cases quote : c = '"'
  · rw [if_pos quote, quote]
    exact readChars_letter rfl
  by_cases backslash : c = '\\'
  · rw [if_neg quote, if_pos backslash, backslash]
    exact readChars_letter rfl
  rw [if_neg quote, if_neg backslash]
  by_cases line : c = '\n'
  · rw [if_pos line, line]
    exact readChars_letter rfl
  by_cases carriage : c = '\r'
  · rw [if_neg line, if_pos carriage, carriage]
    exact readChars_letter rfl
  by_cases tab : c = '\t'
  · rw [if_neg line, if_neg carriage, if_pos tab, tab]
    exact readChars_letter rfl
  rw [if_neg line, if_neg carriage, if_neg tab]
  by_cases printable : 0x20 ≤ c.toNat ∧ c.toNat < 0x7f
  · rw [if_pos printable]
    exact readChars_plain quote backslash printable.1
  rw [if_neg printable]
  by_cases basic : c.toNat < 0x10000
  · have single : Text.isFirstHalf c.toNat = false := by
      simp only [Text.isFirstHalf, Bool.and_eq_false_iff, decide_eq_false_iff_not]
      omega
    rw [if_pos basic, readChars_unit basic more (by simp [single]), charOfUnit?_toNat,
      escapedUnit_length basic]
  · rw [if_neg basic]
    dsimp only
    rw [readChars_pair ?_ ?_ more]
    · rw [List.length_append, escapedUnit_length (by omega), escapedUnit_length (by omega)]
      have point : Text.pairPoint (0xd800 + (c.toNat - 0x10000) / 0x400)
          (0xdc00 + (c.toNat - 0x10000) % 0x400) = c.toNat := by
        unfold Text.pairPoint
        omega
      rw [point, Char.ofNat_toNat]
    · simp only [Text.isFirstHalf, Bool.and_eq_true, decide_eq_true_eq]
      omega
    · simp only [Text.isSecondHalf, Bool.and_eq_true, decide_eq_true_eq]
      omega

/-! ## texts -/

theorem escapedUnit_ne_nil (n : Nat) : escapedUnit n ≠ [] :=
  List.cons_ne_nil '\\' ('u' :: padded 16 4 n)

theorem escapedChar_ne_nil (c : Char) : escapedChar c ≠ [] := by
  unfold escapedChar
  iterate 6
    split
    · exact List.cons_ne_nil _ _
  split
  · exact escapedUnit_ne_nil _
  · exact List.append_ne_nil_of_left_ne_nil (escapedUnit_ne_nil _) _

theorem readChars_escaped (cs : List Char) (rest : List Char)
    (enough : (cs.flatMap escapedChar).length < fuel) :
    readChars start fuel ⟨position, cs.flatMap escapedChar ++ '"' :: rest⟩ read =
      .ok (.of (cs.reverse.map some ++ read),
        ⟨position + (cs.flatMap escapedChar).length + 1, rest⟩) := by
  induction cs generalizing fuel position read with
  | nil =>
    obtain ⟨fuel, rfl⟩ : ∃ k, fuel = k + 1 := ⟨fuel - 1, by omega⟩
    simp only [List.flatMap_nil, List.nil_append, readChars]
    rfl
  | cons c cs ih =>
    obtain ⟨fuel, rfl⟩ : ∃ k, fuel = k + 1 := ⟨fuel - 1, by omega⟩
    have some_char := List.length_pos_iff.2 (escapedChar_ne_nil c)
    rw [List.flatMap_cons, List.length_append] at enough ⊢
    rw [List.append_assoc, readChars_escapedChar c (by simp), ih (by omega), ← Nat.add_assoc,
      List.reverse_cons, List.map_append, List.append_assoc]
    rfl

/-- **A text reads back.** -/
theorem readText_escaped (s : String) (rest : List Char) (position : Nat) :
    readText ⟨position, (escaped s).toList ++ rest⟩ =
      .ok (⟨s, true⟩, ⟨position + (escaped s).toList.length, rest⟩) := by
  have text : (escaped s).toList ++ rest =
      '"' :: (s.toList.flatMap escapedChar ++ '"' :: rest) := by
    unfold escaped
    rw [String.toList_ofList]
    simp
  have length : (escaped s).toList.length = (s.toList.flatMap escapedChar).length + 2 := by
    unfold escaped
    rw [String.toList_ofList]
    simp
  have found : Chars.of (s.toList.reverse.map some ++ []) = ⟨s, true⟩ := by
    have all : ∀ cs : List Char, (cs.map some).map (·.getD Text.replacement) = cs := by
      intro cs
      rw [List.map_map]
      exact List.map_id cs
    unfold Chars.of
    rw [List.append_nil, ← List.map_reverse, List.reverse_reverse, all, String.ofList_toList]
    simp
  unfold readText
  rw [text, length]
  show readChars position _ ⟨position + 1, s.toList.flatMap escapedChar ++ '"' :: rest⟩ [] = _
  rw [readChars_escaped _ _ (by simp; omega), found, Nat.add_right_comm position,
    Nat.add_assoc, Nat.add_assoc]

theorem readText_half (rest : List Char) (position : Nat) :
    ∃ cs : Chars, cs.value = .unpaired ∧
      readText ⟨position, escapedHalf.toList ++ rest⟩ =
        .ok (cs, ⟨position + escapedHalf.toList.length, rest⟩) := by
  refine ⟨.of [none], rfl, ?_⟩
  have text : escapedHalf.toList ++ rest = '"' :: (escapedUnit 0xd800 ++ '"' :: rest) := by
    unfold escapedHalf
    rw [String.toList_ofList, List.cons_append, List.cons_append, List.append_assoc]
    rfl
  have length : escapedHalf.toList.length = 8 := by
    unfold escapedHalf
    rw [String.toList_ofList, List.length_append, List.length_cons, escapedUnit_length (by decide)]
    rfl
  unfold readText
  rw [text, length]
  show readChars position (((escapedUnit 0xd800 ++ '"' :: rest).length + 1) + 1)
    ⟨position + 1, escapedUnit 0xd800 ++ '"' :: rest⟩ [] = _
  rw [readChars_unit (by decide) (by simp) (fun _ => rfl)]
  simp only [readChars]
  rfl

end Billfold.Json
