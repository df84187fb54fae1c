/-!
# Bytes as text

* `ofUtf8`    the characters of bytes in UTF-8; each longest part that begins a character and
              does not end it, and each byte that begins none, stands for U+FFFD
* `ofUtf16?`  the characters of units of 16 bits; half of a pair stands for U+FFFD
* `ofUtf32?`  the characters of units of 32 bits
* `Encoding`  how a JSON text is written as bytes, told from where its first zero bytes are
-/

namespace Billfold.Text

/-- stands for what is no character -/
def replacement : Char := '\ufffd'

def charOfPoint (n : Nat) : Char := if n.isValidChar then Char.ofNat n else replacement

/-! ## UTF-8 -/

/-- what is still to come of a character -/
structure Pending where
  /-- how many bytes -/
  bytes : Nat
  /-- the bits so far -/
  bits : Nat
  /-- the least value of the next byte -/
  least : Nat
  /-- the greatest value of the next byte -/
  greatest : Nat

/-- what follows the first byte of a character of several bytes -/
def Pending.after? (b : Nat) : Option Pending :=
  if 0xc2 ≤ b ∧ b ≤ 0xdf then some ⟨1, b - 0xc0, 0x80, 0xbf⟩
  else if b = 0xe0 then some ⟨2, 0, 0xa0, 0xbf⟩
  else if b = 0xed then some ⟨2, 0xd, 0x80, 0x9f⟩
  else if 0xe1 ≤ b ∧ b ≤ 0xef then some ⟨2, b - 0xe0, 0x80, 0xbf⟩
  else if b = 0xf0 then some ⟨3, 0, 0x90, 0xbf⟩
  else if 0xf1 ≤ b ∧ b ≤ 0xf3 then some ⟨3, b - 0xf0, 0x80, 0xbf⟩
  else if b = 0xf4 then some ⟨3, 4, 0x80, 0x8f⟩
  else none

/-- a byte that begins a character: the character if the byte is all of it, or what is to come -/
def beginChar (b : Nat) : List Char × Option Pending :=
  if b < 0x80 then ([Char.ofNat b], none)
  else
    match Pending.after? b with
    | some pending => ([], some pending)
    | none => ([replacement], none)

/-- a byte after others: the characters that it ends, and what is to come -/
def nextByte (pending : Option Pending) (b : Nat) : List Char × Option Pending :=
  match pending with
  | none => beginChar b
  | some p =>
    if p.least ≤ b ∧ b ≤ p.greatest then
      let bits := 64 * p.bits + b % 64
      if p.bytes = 1 then ([charOfPoint bits], none)
      else ([], some ⟨p.bytes - 1, bits, 0x80, 0xbf⟩)
    else
      let (chars, pending) := beginChar b
      (replacement :: chars, pending)

/-- the characters of bytes behind the beginning of one -/
def utf8From (pending : Option Pending) : List UInt8 → List Char
  | [] => if pending.isSome then [replacement] else []
  | b :: rest =>
    let (chars, pending) := nextByte pending b.toNat
    chars ++ utf8From pending rest

def ofUtf8 (bytes : List UInt8) : List Char := utf8From none bytes

example : ofUtf8 [0xe2, 0x82, 0xe2, 0x82, 0xac] = ['\ufffd', '€'] := by decide
example : ofUtf8 [0xed, 0xa0, 0x80, 0x41] = ['\ufffd', '\ufffd', '\ufffd', 'A'] := by decide

/-! ## UTF-16 and UTF-32 -/

/-- the units that two bytes each make; none if a byte is left over -/
def units16? (little : Bool) : List UInt8 → Option (List Nat)
  | [] => some []
  | [_] => none
  | a :: b :: rest =>
    let unit := if little then 256 * b.toNat + a.toNat else 256 * a.toNat + b.toNat
    (units16? little rest).map (unit :: ·)

/-- the units that four bytes each make; none if bytes are left over -/
def units32? (little : Bool) : List UInt8 → Option (List Nat)
  | [] => some []
  | a :: b :: c :: d :: rest =>
    let bytes := if little then [d, c, b, a] else [a, b, c, d]
    (units32? little rest).map (bytes.foldl (fun n b => 256 * n + b.toNat) 0 :: ·)
  | _ => none

def pairPoint (first second : Nat) : Nat := 0x10000 + (first - 0xd800) * 0x400 + (second - 0xdc00)

def isFirstHalf (unit : Nat) : Bool := 0xd800 ≤ unit && unit ≤ 0xdbff

def isSecondHalf (unit : Nat) : Bool := 0xdc00 ≤ unit && unit ≤ 0xdfff

/-- the characters of units of 16 bits behind the first half of a pair, if one is open -/
def charsFrom (first : Option Nat) : List Nat → List Char
  | [] => if first.isSome then [replacement] else []
  | unit :: rest =>
    match first with
    | some half =>
      if isSecondHalf unit then charOfPoint (pairPoint half unit) :: charsFrom none rest
      else if isFirstHalf unit then replacement :: charsFrom (some unit) rest
      else replacement :: charOfPoint unit :: charsFrom none rest
    | none =>
      if isFirstHalf unit then charsFrom (some unit) rest
      else charOfPoint unit :: charsFrom none rest

def ofUtf16? (little : Bool) (bytes : List UInt8) : Option (List Char) :=
  (units16? little bytes).map (charsFrom none)

/-- the characters of bytes in UTF-32, none of them above the last code point -/
def ofUtf32? (little : Bool) (bytes : List UInt8) : Option (List Char) := do
  let units ← units32? little bytes
  if units.all (· ≤ 0x10ffff) then some (units.map charOfPoint) else none

example : ofUtf16? true [0x3d, 0xd8, 0x00, 0xde, 0x41, 0] = some ['😀', 'A'] := by decide
example : ofUtf32? false [0, 0, 0, 0x41, 0] = none := by decide

/-! ## JSON text -/

inductive Encoding where
  | utf8
  | utf16 (little : Bool)
  | utf32 (little : Bool)
deriving DecidableEq, Repr

namespace Encoding

/-- the encoding of a text that begins with ASCII characters, by the zeros in its first bytes -/
def of : List UInt8 → Encoding
  | [a, b] => if a = 0 then utf16 false else if b = 0 then utf16 true else utf8
  | a :: b :: c :: d :: _ =>
    if a = 0 then if b = 0 then utf32 false else utf16 false
    else if b = 0 then if c = 0 ∧ d = 0 then utf32 true else utf16 true
    else utf8
  | _ => utf8

def chars? : Encoding → List UInt8 → Option (List Char)
  | utf8, bytes => some (ofUtf8 bytes)
  | utf16 little, bytes => ofUtf16? little bytes
  | utf32 little, bytes => ofUtf32? little bytes

example : of [0x7b, 0, 0x7d, 0] = utf16 true ∧ of [0x7b, 0, 0, 0] = utf32 true ∧
    of [0, 0x7b] = utf16 false ∧ of [0x31, 0, 0] = utf8 := by decide

end Encoding

end Billfold.Text
