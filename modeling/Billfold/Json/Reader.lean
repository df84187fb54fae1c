import Billfold.Json.Whole
import Billfold.Text.Encoding

/-!
# Reading JSON text

* `ReadError`     where a text stops being JSON, counted in characters
* `Cursor`        what is still to read, and its place in the text
* `Json.read`     the value that a text writes; numbers with a fraction or an exponent are
                  floating-point numbers, and the last value of a key counts
-/

namespace Billfold

inductive ReadError where
  /-- something else was expected at this place -/
  | unexpected (position : Nat)
  /-- a whole number with too many digits -/
  | numberTooLong
  /-- too many lists and objects inside each other -/
  | tooDeep
deriving DecidableEq, Repr

/-- what is still to read, and its place in the text -/
structure Cursor where
  position : Nat
  rest : List Char

namespace Cursor

def fail {α : Type} (c : Cursor) : Except ReadError α := .error (.unexpected c.position)

def skip (c : Cursor) (n : Nat) : Cursor := ⟨c.position + n, c.rest.drop n⟩

theorem skip_append {position n : Nat} {text rest : List Char} (h : text.length = n) :
    (Cursor.mk position (text ++ rest)).skip n = ⟨position + n, rest⟩ := by
  rw [skip, List.drop_left' h]

def isSpace (c : Char) : Bool := c == ' ' || c == '\t' || c == '\n' || c == '\r'

def skipSpace (c : Cursor) : Cursor := c.skip (c.rest.takeWhile isSpace).length

/-- past a word, if it comes next -/
def word? (c : Cursor) (word : String) : Option Cursor :=
  if word.toList.isPrefixOf c.rest then some (c.skip word.length) else none

end Cursor

namespace Json

/-! ## texts -/

def hexDigit? (c : Char) : Option Nat :=
  if c.isDigit then some (c.toNat - 48)
  else if 'a' ≤ c ∧ c ≤ 'f' then some (c.toNat - 87)
  else if 'A' ≤ c ∧ c ≤ 'F' then some (c.toNat - 55)
  else none

/-- the code unit that four hexadecimal digits write, which do not end the text -/
def codeUnit? : List Char → Option Nat
  | a :: b :: c :: d :: _ :: _ => do
    return ((← hexDigit? a) * 16 + (← hexDigit? b)) * 256 + (← hexDigit? c) * 16 + (← hexDigit? d)
  | _ => none

/-- the unit after a first half, if it is a second half -/
def secondHalf? (rest : List Char) : Option Nat :=
  match rest with
  | '\\' :: 'u' :: digits => do
    let unit ← codeUnit? digits
    if Text.isSecondHalf unit then some unit else none
  | _ => none

def escapeOf? : Char → Option Char
  | '"' => some '"'
  | '\\' => some '\\'
  | '/' => some '/'
  | 'b' => some '\x08'
  | 'f' => some '\x0c'
  | 'n' => some '\n'
  | 'r' => some '\r'
  | 't' => some '\t'
  | _ => none

/-- the characters of a text, U+FFFD for half of a pair -/
structure Chars where
  text : String
  /-- whether there is no half of a pair -/
  whole : Bool

def Chars.value (cs : Chars) : Json := if cs.whole then .text cs.text else .unpaired

/-- the field of a key and a value; of a key with half of a pair, which no field that is asked for
has, neither the half nor the value is kept -/
def Chars.field (key : Chars) (value : Json) : String × Json :=
  (key.text, if key.whole then value else .unpaired)

/-- characters that are read, the last one first; none for half of a pair -/
def Chars.of (read : List (Option Char)) : Chars where
  text := String.ofList (read.reverse.map (·.getD Text.replacement))
  whole := read.all Option.isSome

/-- the character of a single code unit; none for half of a pair -/
def charOfUnit? (n : Nat) : Option Char := if n.isValidChar then some (Char.ofNat n) else none

/-- the characters up to the closing quote; `start` is the place of the opening one -/
def readChars (start : Nat) : Nat → Cursor → List (Option Char) → Except ReadError (Chars × Cursor)
  | 0, _, _ => .error (.unexpected start)
  | fuel + 1, c, read =>
    match c.rest with
    | [] => .error (.unexpected start)
    | '"' :: _ => .ok (.of read, c.skip 1)
    | '\\' :: rest =>
      match rest with
      | [] => .error (.unexpected start)
      | 'u' :: digits =>
        match codeUnit? digits with
        | none => .error (.unexpected (c.position + 1))
        | some unit =>
          match if Text.isFirstHalf unit then secondHalf? (digits.drop 4) else none with
          | some second =>
            readChars start fuel (c.skip 12) (some (.ofNat (Text.pairPoint unit second)) :: read)
          | none => readChars start fuel (c.skip 6) (charOfUnit? unit :: read)
      | e :: _ =>
        match escapeOf? e with
        | some char => readChars start fuel (c.skip 2) (some char :: read)
        | none => c.fail
    | char :: _ =>
      if char.toNat < 0x20 then c.fail else readChars start fuel (c.skip 1) (some char :: read)

/-- a text whose opening quote is next -/
def readText (c : Cursor) : Except ReadError (Chars × Cursor) :=
  readChars c.position (c.rest.length + 1) (c.skip 1) []

/-! ## numbers -/

/-- the whole part of a number: no zero in front of other digits -/
def wholeDigits (cs : List Char) : List Char :=
  match cs with
  | '0' :: _ => ['0']
  | _ => cs.takeWhile Char.isDigit

/-- the digits of a fraction, which must have one -/
def fractionDigits (cs : List Char) : List Char :=
  match cs with
  | '.' :: rest => rest.takeWhile Char.isDigit
  | _ => []

/-- the sign and the digits of an exponent, which must have one, and how long they are -/
def exponentPart? (cs : List Char) : Option (Int × Nat) :=
  match cs with
  | e :: rest =>
    if e = 'e' ∨ e = 'E' then
      let (negative, signs, rest) := match rest with
        | '-' :: rest => (true, 1, rest)
        | '+' :: rest => (false, 1, rest)
        | rest => (false, 0, rest)
      let digits := rest.takeWhile Char.isDigit
      if digits.isEmpty then none
      else
        let n : Int := ofNumeral digits
        some (if negative then -n else n, 1 + signs + digits.length)
    else none
  | [] => none

def readNumber (c : Cursor) : Except ReadError (Json × Cursor) :=
  let negative := c.rest.head? == some '-'
  let signs := if negative then 1 else 0
  let cs := c.rest.drop signs
  let whole := wholeDigits cs
  if whole.isEmpty then c.fail
  else
    let cs := cs.drop whole.length
    let fraction := fractionDigits cs
    let points := if fraction.isEmpty then 0 else 1 + fraction.length
    let exponent := exponentPart? (cs.drop points)
    let c := c.skip (signs + whole.length + points + (exponent.map Prod.snd).getD 0)
    if fraction.isEmpty && exponent.isNone then
      if maxWholeDigits < whole.length then .error .numberTooLong
      else
        let n : Int := ofNumeral whole
        .ok (.int (if negative then -n else n), c)
    else
      let place := (exponent.map Prod.fst).getD 0 - fraction.length
      .ok (.float (Binary64.ofDecimal negative (ofNumeral (whole ++ fraction)) place), c)

/-- the words that stand for a value, longest first where one begins another -/
def wordValues : List (String × Json) :=
  [("null", .null), ("true", .bool true), ("false", .bool false), ("NaN", .float .nan),
    ("Infinity", .float (.infinite false)), ("-Infinity", .float (.infinite true))]

def readWord? (c : Cursor) : Option (Json × Cursor) :=
  wordValues.findSome? fun (word, value) => (c.word? word).map (value, ·)

/-! ## values -/

/-- lists and objects may be this many inside each other -/
def maxDepth : Nat := 950

mutual

/-- the value that comes next, in which `depth` more lists and objects may be inside each other -/
def readValue (depth : Nat) : Nat → Cursor → Except ReadError (Json × Cursor)
  | 0, c => c.fail
  | fuel + 1, c =>
    match c.rest with
    | '"' :: _ => do
      let (s, c) ← readText c
      return (s.value, c)
    | '[' :: _ =>
      if depth = 0 then .error .tooDeep
      else
        let c := (c.skip 1).skipSpace
        match c.rest with
        | ']' :: _ => .ok (.list [], c.skip 1)
        | _ => do
          let (items, c) ← readItems (depth - 1) fuel c
          return (.list items, c)
    | '\x7b' :: _ =>
      if depth = 0 then .error .tooDeep
      else
        let c := (c.skip 1).skipSpace
        match c.rest with
        | '\x7d' :: _ => .ok (.object [], c.skip 1)
        | _ => do
          let (fields, c) ← readFields (depth - 1) fuel c
          return (.object (Fields.ofPairs fields), c)
    | _ =>
      match readWord? c with
      | some found => .ok found
      | none => readNumber c

/-- the items up to the closing bracket -/
def readItems (depth : Nat) : Nat → Cursor → Except ReadError (List Json × Cursor)
  | 0, c => c.fail
  | fuel + 1, c => do
    let (item, c) ← readValue depth fuel c
    let c := c.skipSpace
    match c.rest with
    | ']' :: _ => return ([item], c.skip 1)
    | ',' :: _ =>
      let (items, c) ← readItems depth fuel (c.skip 1).skipSpace
      return (item :: items, c)
    | _ => c.fail

/-- the fields up to the closing brace -/
def readFields (depth : Nat) : Nat → Cursor → Except ReadError (List (String × Json) × Cursor)
  | 0, c => c.fail
  | fuel + 1, c =>
    match c.rest with
    | '"' :: _ => do
      let (key, c) ← readText c
      let c := c.skipSpace
      match c.rest with
      | ':' :: _ =>
        let (value, c) ← readValue depth fuel (c.skip 1).skipSpace
        let c := c.skipSpace
        match c.rest with
        | '\x7d' :: _ => return ([key.field value], c.skip 1)
        | ',' :: _ =>
          let (fields, c) ← readFields depth fuel (c.skip 1).skipSpace
          return (key.field value :: fields, c)
        | _ => c.fail
      | _ => c.fail
    | _ => c.fail

end

def read (s : List Char) : Except ReadError Json := do
  let start : Cursor := ⟨0, s⟩
  let (value, c) ← readValue maxDepth (2 * s.length + 2) start.skipSpace
  let c := c.skipSpace
  match c.rest with
  | [] => return value
  | _ => c.fail

end Json

end Billfold
