import Billfold.Proofs.Json.Fits
import Billfold.Proofs.Json.Number
import Billfold.Proofs.Json.Text

/-!
# Values in JSON text read back

* `Json.Begins`         a text that begins neither with a blank nor with a closing bracket
* `Json.ReadsValues`    the reader reads the texts of all values that its fuel is enough for
* `Json.read_print`     a value that JSON text can write reads back as itself
-/

namespace Billfold

-- powers of natural numbers are those of the core library, whatever is imported beside this module
attribute [local instance (2000)] instPowNat

namespace Json

variable {depth fuel position : Nat} {rest : List Char}

/-! ## what comes next -/

theorem skipSpace_of_head {c : Char} {cs : List Char} (h : Cursor.isSpace c = false) :
    (Cursor.mk position (c :: cs)).skipSpace = ⟨position, c :: cs⟩ := by
  simp [Cursor.skipSpace, Cursor.skip, h]

/-- a character that a value begins with: no blank and no bracket that closes -/
def Begins (text : List Char) : Prop :=
  ∃ c cs, text = c :: cs ∧ Cursor.isSpace c = false ∧ c ≠ ']' ∧ c ≠ '\x7d'

theorem chars_head {t : NumberText} (good : t.Good) :
    ∃ c cs, t.chars = c :: cs ∧
      (c.isDigit = true ∨ c = '-' ∧ ∃ d ds, cs = d :: ds ∧ d.isDigit = true) := by
  have digits := good.whole_digits
  obtain ⟨d, ds, whole⟩ := List.exists_cons_of_ne_nil good.whole_ne
  have digit : d.isDigit = true := digits d (by rw [whole]; exact List.mem_cons_self)
  unfold NumberText.chars
  rw [whole]
  cases t.negative with
  | true => exact ⟨_, _, rfl, .inr ⟨rfl, _, _, rfl, digit⟩⟩
  | false => exact ⟨_, _, rfl, .inl digit⟩

theorem digit_ne {c : Char} (h : c.isDigit = true) {d : Char} (no_digit : d.isDigit = false) :
    c ≠ d := by
  rintro rfl
  rw [h] at no_digit
  cases no_digit

theorem word_head {found : String × Json} (h : found ∈ wordValues) :
    ∃ w ws, found.1.toList = w :: ws ∧ w.isDigit = false ∧
      (w = '-' → ∃ v vs, ws = v :: vs ∧ v.isDigit = false) := by
  simp only [wordValues, List.mem_cons, List.not_mem_nil, or_false] at h
  rcases h with rfl | rfl | rfl | rfl | rfl | rfl
  · exact ⟨_, _, rfl, by decide, fun h => absurd h (by decide)⟩
  · exact ⟨_, _, rfl, by decide, fun h => absurd h (by decide)⟩
  · exact ⟨_, _, rfl, by decide, fun h => absurd h (by decide)⟩
  · exact ⟨_, _, rfl, by decide, fun h => absurd h (by decide)⟩
  · exact ⟨_, _, rfl, by decide, fun h => absurd h (by decide)⟩
  · exact ⟨_, _, rfl, by decide, fun _ => ⟨_, _, rfl, by decide⟩⟩

theorem readWord?_number {t : NumberText} (good : t.Good) (position : Nat) (rest : List Char) :
    readWord? ⟨position, t.chars ++ rest⟩ = none := by
  rw [readWord?, List.findSome?_eq_none_iff]
  intro found mem
  obtain ⟨w, ws, word, no_digit, behind⟩ := word_head mem
  obtain ⟨c, cs, text, number⟩ := chars_head good
  have other : found.1.toList.isPrefixOf (t.chars ++ rest) = false := by
    rw [word, text]
    show ((w == c) && ws.isPrefixOf (cs ++ rest)) = false
    rw [Bool.and_eq_false_iff]
    rcases number with digit | ⟨rfl, d, ds, rfl, digit⟩
    · exact .inl (beq_eq_false_iff_ne.2 (digit_ne digit no_digit).symm)
    · by_cases sign : w = '-'
      · obtain ⟨v, vs, rfl, no_digit⟩ := behind sign
        refine .inr ?_
        show ((v == d) && vs.isPrefixOf (ds ++ rest)) = false
        rw [beq_eq_false_iff_ne.2 (digit_ne digit no_digit).symm, Bool.false_and]
      · exact .inl (beq_eq_false_iff_ne.2 sign)
  obtain ⟨key, value⟩ := found
  show ((Cursor.mk position (t.chars ++ rest)).word? key).map _ = none
  rw [Cursor.word?, other]
  rfl

theorem readValue_number {t : NumberText} (good : t.Good) (stop : NumberText.Stop rest) :
    readValue depth (fuel + 1) ⟨position, t.chars ++ rest⟩ =
      .ok (t.value, ⟨position + t.chars.length, rest⟩) := by
  obtain ⟨c, cs, text, number⟩ := chars_head good
  have ne : c ≠ '"' ∧ c ≠ '[' ∧ c ≠ '\x7b' := by
    rcases number with digit | ⟨rfl, -⟩
    · exact ⟨digit_ne digit (by decide), digit_ne digit (by decide), digit_ne digit (by decide)⟩
    · decide
  obtain ⟨quote, bracket, brace⟩ := ne
  have word := readWord?_number good position rest
  have number := NumberText.readNumber_eq good stop position
  rw [text, List.cons_append] at *
  rw [readValue]
  split
  · cases ‹c :: (cs ++ rest) = '"' :: _›
    exact absurd rfl quote
  · cases ‹c :: (cs ++ rest) = '[' :: _›
    exact absurd rfl bracket
  · cases ‹c :: (cs ++ rest) = '\x7b' :: _›
    exact absurd rfl brace
  · rw [word]
    exact number

theorem readValue_word {name : String} {value : Json} (h : (name, value) ∈ wordValues) :
    readValue depth (fuel + 1) ⟨position, name.toList ++ rest⟩ =
      .ok (value, ⟨position + name.length, rest⟩) := by
  have word : readWord? ⟨position, name.toList ++ rest⟩ =
      some (value, ⟨position + name.length, rest⟩) := by
    simp only [wordValues, List.mem_cons, Prod.mk.injEq, List.not_mem_nil, or_false] at h
    rcases h with ⟨rfl, rfl⟩ | ⟨rfl, rfl⟩ | ⟨rfl, rfl⟩ | ⟨rfl, rfl⟩ | ⟨rfl, rfl⟩ | ⟨rfl, rfl⟩ <;>
      rfl
  obtain ⟨quote, bracket, brace⟩ : (name.toList ++ rest).head? ≠ some '"' ∧
      (name.toList ++ rest).head? ≠ some '[' ∧ (name.toList ++ rest).head? ≠ some '\x7b' := by
    simp only [wordValues, List.mem_cons, Prod.mk.injEq, List.not_mem_nil, or_false] at h
    rcases h with ⟨rfl, -⟩ | ⟨rfl, -⟩ | ⟨rfl, -⟩ | ⟨rfl, -⟩ | ⟨rfl, -⟩ | ⟨rfl, -⟩ <;> simp
  rw [readValue]
  dsimp only
  split
  · rename_i h
    rw [h] at quote
    exact absurd rfl quote
  · rename_i h
    rw [h] at bracket
    exact absurd rfl bracket
  · rename_i h
    rw [h] at brace
    exact absurd rfl brace
  · rw [word]

/-! ## the text of a value -/

theorem print_float {x : Binary64} (standard : x.IsStandard) :
    (∃ t : NumberText, t.Good ∧ t.value = .float x ∧ (print (.float x)).toList = t.chars) ∨
      (print (.float x), Json.float x) ∈ wordValues := by
  cases x with
  | finite negative significand e =>
    exact .inl ⟨_, NumberText.ofFinite_good standard, NumberText.ofFinite_value standard,
      NumberText.ofFinite_chars.symm⟩
  | infinite negative =>
    have false_print : print (.float (.infinite false)) = "Infinity" := rfl
    have true_print : print (.float (.infinite true)) = "-Infinity" := rfl
    cases negative with
    | false => simp [false_print, wordValues]
    | true => simp [true_print, wordValues]
  | nan =>
    have nan_print : print (.float .nan) = "NaN" := rfl
    simp [nan_print, wordValues]

theorem begins_of_head {c : Char} {cs : List Char} (space : Cursor.isSpace c = false)
    (bracket : c ≠ ']') (brace : c ≠ '\x7d') : Begins (c :: cs) :=
  ⟨c, cs, rfl, space, bracket, brace⟩

theorem NumberText.Good.begins {t : NumberText} (good : t.Good) : Begins t.chars := by
  obtain ⟨c, cs, text, digit | ⟨rfl, -⟩⟩ := chars_head good
  · rw [text]
    refine begins_of_head ?_ (digit_ne digit (by decide)) (digit_ne digit (by decide))
    simp only [Cursor.isSpace, Bool.or_eq_false_iff, beq_eq_false_iff_ne]
    exact ⟨⟨⟨digit_ne digit (by decide), digit_ne digit (by decide)⟩,
      digit_ne digit (by decide)⟩, digit_ne digit (by decide)⟩
  · rw [text]
    exact begins_of_head (by decide) (by decide) (by decide)

theorem begins_word {name : String} {value : Json} (h : (name, value) ∈ wordValues) :
    Begins name.toList := by
  simp only [wordValues, List.mem_cons, Prod.mk.injEq, List.not_mem_nil, or_false] at h
  rcases h with ⟨rfl, -⟩ | ⟨rfl, -⟩ | ⟨rfl, -⟩ | ⟨rfl, -⟩ | ⟨rfl, -⟩ | ⟨rfl, -⟩ <;>
    exact begins_of_head (by decide) (by decide) (by decide)

theorem escaped_toList (s : String) :
    (escaped s).toList = '"' :: (s.toList.flatMap escapedChar ++ ['"']) := by
  rw [escaped, String.toList_ofList, List.cons_append]

theorem print_list (items : List Json) :
    (print (.list items)).toList =
      '[' :: ((String.intercalate "," (printItems items)).toList ++ [']']) := by
  simp [print]

theorem print_object (fields : List (String × Json)) :
    (print (.object fields)).toList =
      '\x7b' :: ((String.intercalate "," (printFields fields)).toList ++ ['\x7d']) := by
  simp [print]

theorem begins_print {v : Json} (fits : v.Fits depth) : Begins v.print.toList := by
  have quote : ∀ cs, Begins ('"' :: cs) := fun cs =>
    begins_of_head (by decide) (by decide) (by decide)
  cases v with
  | null => exact begins_word (List.mem_of_getElem? (rfl : wordValues[0]? = _))
  | bool b =>
    cases b with
    | true => exact begins_word (List.mem_of_getElem? (rfl : wordValues[1]? = _))
    | false => exact begins_word (List.mem_of_getElem? (rfl : wordValues[2]? = _))
  | int n =>
    have good := NumberText.ofInt_good fits
    show Begins (toString n).toList
    rw [← NumberText.ofInt_chars]
    exact good.begins
  | float x =>
    rcases print_float fits with ⟨t, good, -, text⟩ | word
    · rw [text]
      exact good.begins
    · exact begins_word word
  | text s =>
    show Begins (escaped s).toList
    rw [escaped_toList]
    exact quote _
  | unpaired =>
    show Begins escapedHalf.toList
    rw [escapedHalf, String.toList_ofList]
    exact quote _
  | list items =>
    rw [print_list]
    exact begins_of_head (by decide) (by decide) (by decide)
  | object fields =>
    rw [print_object]
    exact begins_of_head (by decide) (by decide) (by decide)

theorem Begins.append {text : List Char} (h : Begins text) (more : List Char) :
    Begins (text ++ more) := by
  obtain ⟨c, cs, rfl, rest⟩ := h
  exact ⟨c, cs ++ more, rfl, rest⟩

theorem skipSpace_of_begins {text : List Char} (h : Begins text) :
    (Cursor.mk position text).skipSpace = ⟨position, text⟩ := by
  obtain ⟨c, cs, rfl, space, -⟩ := h
  exact skipSpace_of_head space

/-! ## one step of the reader -/

variable {c c' : Cursor} {tail : List Char} {behind : Nat}

theorem readValue_text {cs : Chars} (h : readText ⟨position, '"' :: tail⟩ = .ok (cs, c')) :
    readValue depth (fuel + 1) ⟨position, '"' :: tail⟩ = .ok (cs.value, c') := by
  simp only [readValue]
  rw [h]
  rfl

theorem readValue_list {items : List Json} (deep : 0 < depth) (begins : Begins tail)
    (h : readItems (depth - 1) fuel ⟨position + 1, tail⟩ = .ok (items, c')) :
    readValue depth (fuel + 1) ⟨position, '[' :: tail⟩ = .ok (.list items, c') := by
  have start : ((Cursor.mk position ('[' :: tail)).skip 1).skipSpace = ⟨position + 1, tail⟩ :=
    skipSpace_of_begins begins
  simp only [readValue]
  rw [if_neg (Nat.pos_iff_ne_zero.1 deep), start]
  obtain ⟨d, ds, rfl, -, bracket, -⟩ := begins
  split
  · cases ‹d :: ds = ']' :: _›
    exact absurd rfl bracket
  · rw [h]
    rfl

theorem readValue_object {fields : List (String × Json)} (deep : 0 < depth) (begins : Begins tail)
    (h : readFields (depth - 1) fuel ⟨position + 1, tail⟩ = .ok (fields, c')) :
    readValue depth (fuel + 1) ⟨position, '\x7b' :: tail⟩ =
      .ok (.object (Fields.ofPairs fields), c') := by
  have start : ((Cursor.mk position ('\x7b' :: tail)).skip 1).skipSpace = ⟨position + 1, tail⟩ :=
    skipSpace_of_begins begins
  simp only [readValue]
  rw [if_neg (Nat.pos_iff_ne_zero.1 deep), start]
  obtain ⟨d, ds, rfl, -, -, brace⟩ := begins
  split
  · cases ‹d :: ds = '\x7d' :: _›
    exact absurd rfl brace
  · rw [h]
    rfl

theorem readValue_nil (deep : 0 < depth) :
    readValue depth (fuel + 1) ⟨position, (print (.list [])).toList ++ rest⟩ =
      .ok (.list [], ⟨position + 2, rest⟩) := by
  show readValue depth (fuel + 1) ⟨position, '[' :: ']' :: rest⟩ = _
  simp only [readValue]
  rw [if_neg (Nat.pos_iff_ne_zero.1 deep)]
  rfl

theorem readValue_empty (deep : 0 < depth) :
    readValue depth (fuel + 1) ⟨position, (print (.object [])).toList ++ rest⟩ =
      .ok (.object [], ⟨position + 2, rest⟩) := by
  show readValue depth (fuel + 1) ⟨position, '\x7b' :: '\x7d' :: rest⟩ = _
  simp only [readValue]
  rw [if_neg (Nat.pos_iff_ne_zero.1 deep)]
  rfl

theorem readItems_last {item : Json}
    (h : readValue depth fuel c = .ok (item, ⟨behind, ']' :: rest⟩)) :
    readItems depth (fuel + 1) c = .ok ([item], ⟨behind + 1, rest⟩) := by
  have close : (Cursor.mk behind (']' :: rest)).skipSpace = ⟨behind, ']' :: rest⟩ :=
    skipSpace_of_head (by decide)
  rw [readItems, Except.bind_eq_ok]
  refine ⟨_, h, ?_⟩
  dsimp only
  rw [close]
  rfl

theorem readItems_more {item : Json} {items : List Json} (begins : Begins tail)
    (h : readValue depth fuel c = .ok (item, ⟨behind, ',' :: tail⟩))
    (h' : readItems depth fuel ⟨behind + 1, tail⟩ = .ok (items, c')) :
    readItems depth (fuel + 1) c = .ok (item :: items, c') := by
  have comma : (Cursor.mk behind (',' :: tail)).skipSpace = ⟨behind, ',' :: tail⟩ :=
    skipSpace_of_head (by decide)
  have next : ((Cursor.mk behind (',' :: tail)).skip 1).skipSpace = ⟨behind + 1, tail⟩ :=
    skipSpace_of_begins begins
  rw [readItems, Except.bind_eq_ok]
  refine ⟨_, h, ?_⟩
  dsimp only
  rw [comma, next]
  exact Except.bind_eq_ok.2 ⟨_, h', rfl⟩

variable {key : Chars} {value : Json}

theorem readFields_last {text : List Char} {after : Nat}
    (hk : readText ⟨position, '"' :: text⟩ = .ok (key, ⟨behind, ':' :: tail⟩))
    (begins : Begins tail)
    (hv : readValue depth fuel ⟨behind + 1, tail⟩ = .ok (value, ⟨after, '\x7d' :: rest⟩)) :
    readFields depth (fuel + 1) ⟨position, '"' :: text⟩ =
      .ok ([key.field value], ⟨after + 1, rest⟩) := by
  have colon : (Cursor.mk behind (':' :: tail)).skipSpace = ⟨behind, ':' :: tail⟩ :=
    skipSpace_of_head (by decide)
  have start : ((Cursor.mk behind (':' :: tail)).skip 1).skipSpace = ⟨behind + 1, tail⟩ :=
    skipSpace_of_begins begins
  have close : (Cursor.mk after ('\x7d' :: rest)).skipSpace = ⟨after, '\x7d' :: rest⟩ :=
    skipSpace_of_head (by decide)
  simp only [readFields]
  refine Except.bind_eq_ok.2 ⟨_, hk, ?_⟩
  dsimp only
  rw [colon, start]
  refine Except.bind_eq_ok.2 ⟨_, hv, ?_⟩
  dsimp only
  rw [close]
  rfl

theorem readFields_more {text next : List Char} {fields : List (String × Json)} {after : Nat}
    (hk : readText ⟨position, '"' :: text⟩ = .ok (key, ⟨behind, ':' :: tail⟩))
    (begins : Begins tail)
    (hv : readValue depth fuel ⟨behind + 1, tail⟩ = .ok (value, ⟨after, ',' :: next⟩))
    (begins' : Begins next) (h : readFields depth fuel ⟨after + 1, next⟩ = .ok (fields, c')) :
    readFields depth (fuel + 1) ⟨position, '"' :: text⟩ =
      .ok (key.field value :: fields, c') := by
  have colon : (Cursor.mk behind (':' :: tail)).skipSpace = ⟨behind, ':' :: tail⟩ :=
    skipSpace_of_head (by decide)
  have start : ((Cursor.mk behind (':' :: tail)).skip 1).skipSpace = ⟨behind + 1, tail⟩ :=
    skipSpace_of_begins begins
  have comma : (Cursor.mk after (',' :: next)).skipSpace = ⟨after, ',' :: next⟩ :=
    skipSpace_of_head (by decide)
  have start' : ((Cursor.mk after (',' :: next)).skip 1).skipSpace = ⟨after + 1, next⟩ :=
    skipSpace_of_begins begins'
  simp only [readFields]
  refine Except.bind_eq_ok.2 ⟨_, hk, ?_⟩
  dsimp only
  rw [colon, start]
  refine Except.bind_eq_ok.2 ⟨_, hv, ?_⟩
  dsimp only
  rw [comma, start']
  exact Except.bind_eq_ok.2 ⟨_, h, rfl⟩

/-! ## whole values -/

theorem items_cons (item next : Json) (items : List Json) :
    (String.intercalate "," (printItems (item :: next :: items))).toList =
      item.print.toList ++ ',' :: (String.intercalate "," (printItems (next :: items))).toList := by
  simp [printItems, String.intercalate_cons_cons]

theorem fields_cons (field next : String × Json) (fields : List (String × Json)) :
    (String.intercalate "," (printFields (field :: next :: fields))).toList =
      (escaped field.1).toList ++ ':' :: (field.2.print.toList ++
        ',' :: (String.intercalate "," (printFields (next :: fields))).toList) := by
  simp [printFields, String.intercalate_cons_cons]

theorem begins_items {item : Json} {items : List Json} (fits : item.Fits depth) :
    Begins (String.intercalate "," (printItems (item :: items))).toList := by
  cases items with
  | nil => exact begins_print fits
  | cons next items =>
    rw [items_cons]
    exact (begins_print fits).append _

theorem begins_fields (field : String × Json) (fields : List (String × Json)) :
    Begins (String.intercalate "," (printFields (field :: fields))).toList := by
  have key : Begins (escaped field.1).toList := by
    rw [escaped_toList]
    exact begins_of_head (by decide) (by decide) (by decide)
  cases fields with
  | nil =>
    simp only [printFields, String.intercalate_singleton, String.toList_append, List.append_assoc]
    exact key.append _
  | cons next fields =>
    rw [fields_cons]
    exact key.append _

/-- with so much fuel the reader reads the texts of all values -/
def ReadsValues (fuel : Nat) : Prop :=
  ∀ (v : Json) (depth position : Nat) (rest : List Char),
    v.Fits depth → v.print.toList.length ≤ fuel → NumberText.Stop rest →
    ∃ behind, readValue depth fuel ⟨position, v.print.toList ++ rest⟩ = .ok (v, ⟨behind, rest⟩)

/-- and of all items up to the closing bracket -/
def ReadsItems (fuel : Nat) : Prop :=
  ∀ (item : Json) (items : List Json) (depth position : Nat) (rest : List Char),
    FitItems depth (item :: items) →
    (String.intercalate "," (printItems (item :: items))).toList.length < fuel →
    ∃ behind, readItems depth fuel
      ⟨position, (String.intercalate "," (printItems (item :: items))).toList ++ ']' :: rest⟩ =
        .ok (item :: items, ⟨behind, rest⟩)

/-- and of all fields up to the closing brace -/
def ReadsFields (fuel : Nat) : Prop :=
  ∀ (field : String × Json) (fields : List (String × Json)) (depth position : Nat)
    (rest : List Char), FitFields depth (field :: fields) →
    (String.intercalate "," (printFields (field :: fields))).toList.length < fuel →
    ∃ behind, readFields depth fuel
      ⟨position, (String.intercalate "," (printFields (field :: fields))).toList ++
        '\x7d' :: rest⟩ = .ok (field :: fields, ⟨behind, rest⟩)

theorem readsValues_zero : ReadsValues 0 := by
  intro v depth position rest fits enough _
  obtain ⟨c, cs, text, -⟩ := begins_print fits
  rw [text] at enough
  exact absurd enough (Nat.not_succ_le_zero _)

theorem readsValues_succ (items_read : ReadsItems fuel) (fields_read : ReadsFields fuel) :
    ReadsValues (fuel + 1) := by
  intro v depth position rest fits enough stop
  cases v with
  | null => exact ⟨_, readValue_word (List.mem_of_getElem? (rfl : wordValues[0]? = _))⟩
  | bool b =>
    cases b with
    | true => exact ⟨_, readValue_word (List.mem_of_getElem? (rfl : wordValues[1]? = _))⟩
    | false => exact ⟨_, readValue_word (List.mem_of_getElem? (rfl : wordValues[2]? = _))⟩
  | int n =>
    have read : readValue depth (fuel + 1) ⟨position, (NumberText.ofInt n).chars ++ rest⟩ = _ :=
      readValue_number (NumberText.ofInt_good fits) stop
    rw [NumberText.ofInt_value, NumberText.ofInt_chars] at read
    exact ⟨_, read⟩
  | float x =>
    rcases print_float fits with ⟨t, good, value, text⟩ | word
    · rw [text, ← value]
      exact ⟨_, readValue_number good stop⟩
    · exact ⟨_, readValue_word word⟩
  | text s =>
    have read := readText_escaped s rest position
    rw [escaped_toList] at read
    rw [print, escaped_toList]
    exact ⟨_, readValue_text read⟩
  | unpaired =>
    obtain ⟨cs, half, read⟩ := readText_half rest position
    have text : escapedHalf.toList ++ rest = '"' :: (escapedUnit 0xd800 ++ ['"'] ++ rest) := by
      rw [escapedHalf, String.toList_ofList]
      rfl
    rw [text] at read
    rw [print, text, ← half]
    exact ⟨_, readValue_text read⟩
  | list items =>
    cases items with
    | nil => exact ⟨_, readValue_nil fits.1⟩
    | cons item items =>
      rw [print_list] at enough ⊢
      rw [List.length_cons, List.length_append, List.length_singleton] at enough
      obtain ⟨behind, read⟩ := items_read item items (depth - 1) (position + 1) rest fits.2
        (by omega)
      rw [List.cons_append, List.append_assoc]
      exact ⟨_, readValue_list fits.1 ((begins_items fits.2.1).append _) read⟩
  | object fields =>
    obtain ⟨deep, keys, fits⟩ := fits
    cases fields with
    | nil => exact ⟨_, readValue_empty deep⟩
    | cons field fields =>
      rw [print_object] at enough ⊢
      rw [List.length_cons, List.length_append, List.length_singleton] at enough
      obtain ⟨behind, read⟩ := fields_read field fields (depth - 1) (position + 1) rest fits
        (by omega)
      have value := readValue_object deep
        ((begins_fields field fields).append _) read
      rw [Fields.ofPairs_of_nodup keys] at value
      rw [List.cons_append, List.append_assoc]
      exact ⟨_, value⟩

theorem readsItems_succ (values_read : ReadsValues fuel) (items_read : ReadsItems fuel) :
    ReadsItems (fuel + 1) := by
  intro item items depth position rest fits enough
  cases items with
  | nil =>
    obtain ⟨behind, read⟩ := values_read item depth position (']' :: rest) fits.1
      (Nat.le_of_lt_succ enough) (by simp [NumberText.Stop])
    exact ⟨_, readItems_last read⟩
  | cons next items =>
    rw [items_cons, List.length_append, List.length_cons] at enough
    rw [items_cons, List.append_assoc]
    obtain ⟨behind, read⟩ := values_read item depth position
      (',' :: ((String.intercalate "," (printItems (next :: items))).toList ++ ']' :: rest))
      fits.1 (by omega) (by simp [NumberText.Stop])
    obtain ⟨behind', read'⟩ := items_read next items depth (behind + 1) rest fits.2 (by omega)
    exact ⟨_, readItems_more ((begins_items fits.2.1).append _) read read'⟩

/-- the text of a field that ends with a given text, read as far as its colon -/
theorem readText_key (key : String) (tail : List Char) (position : Nat) :
    ∃ text behind, (escaped key).toList ++ ':' :: tail = '"' :: text ∧
      readText ⟨position, '"' :: text⟩ = .ok (⟨key, true⟩, ⟨behind, ':' :: tail⟩) := by
  have read := readText_escaped key (':' :: tail) position
  rw [escaped_toList, List.cons_append] at read
  exact ⟨_, _, by rw [escaped_toList, List.cons_append], read⟩

theorem readsFields_succ (values_read : ReadsValues fuel) (fields_read : ReadsFields fuel) :
    ReadsFields (fuel + 1) := by
  rintro ⟨key, value⟩ fields depth position rest fits enough
  have begins : Begins value.print.toList := begins_print fits.1
  cases fields with
  | nil =>
    have text : (String.intercalate "," (printFields [(key, value)])).toList =
        (escaped key).toList ++ ':' :: value.print.toList := by
      simp [printFields]
    rw [text, List.length_append, List.length_cons] at enough
    rw [text, List.append_assoc, List.cons_append]
    obtain ⟨text, behind, same, read⟩ := readText_key key (value.print.toList ++ '\x7d' :: rest)
      position
    obtain ⟨after, read'⟩ := values_read value depth (behind + 1) ('\x7d' :: rest) fits.1
      (by omega) (by simp [NumberText.Stop])
    rw [same]
    exact ⟨_, readFields_last read (begins.append _) read'⟩
  | cons next fields =>
    rw [fields_cons] at enough ⊢
    simp only [List.length_append, List.length_cons] at enough
    simp only [List.append_assoc, List.cons_append]
    generalize tail_eq : (String.intercalate "," (printFields (next :: fields))).toList ++
      '\x7d' :: rest = tail
    obtain ⟨text, behind, same, read⟩ := readText_key key (value.print.toList ++ ',' :: tail)
      position
    obtain ⟨after, read'⟩ := values_read value depth (behind + 1) (',' :: tail) fits.1 (by omega)
      (by simp [NumberText.Stop])
    obtain ⟨last, read''⟩ := fields_read next fields depth (after + 1) rest fits.2 (by omega)
    have begins' := (begins_fields next fields).append ('\x7d' :: rest)
    rw [tail_eq] at read'' begins'
    rw [same]
    exact ⟨_, readFields_more read (begins.append _) read' begins' read''⟩

theorem readsAll (fuel : Nat) : ReadsValues fuel ∧ ReadsItems fuel ∧ ReadsFields fuel := by
  induction fuel with
  | zero =>
    refine ⟨readsValues_zero, ?_, ?_⟩
    · intro item items depth position rest _ enough
      exact absurd enough (Nat.not_lt_zero _)
    · intro field fields depth position rest _ enough
      exact absurd enough (Nat.not_lt_zero _)
  | succ fuel ih =>
    obtain ⟨values, items, fields⟩ := ih
    exact ⟨readsValues_succ items fields, readsItems_succ values items,
      readsFields_succ values fields⟩

theorem read_print {v : Json} (fits : v.Fits maxDepth) : read v.print.toList = .ok v := by
  have start : (Cursor.mk 0 v.print.toList).skipSpace = ⟨0, v.print.toList⟩ :=
    skipSpace_of_begins (begins_print fits)
  obtain ⟨behind, value⟩ := (readsAll (2 * v.print.toList.length + 2)).1 v maxDepth 0 [] fits
    (by omega) (by simp [NumberText.Stop])
  rw [List.append_nil] at value
  unfold read
  dsimp only
  rw [start]
  exact Except.bind_eq_ok.2 ⟨_, value, rfl⟩

end Json

end Billfold
