import Billfold.Json.Shown

/-!
# JSON text

* `Json.print`   a value as JSON text in ASCII
-/

namespace Billfold

def jsonFloat : FloatFormat := { shownFloat with infinity := "Infinity", nan := "NaN" }

namespace Json

/-- a code unit of 16 bits as an escape -/
def escapedUnit (n : Nat) : List Char := ['\\', 'u'] ++ padded 16 4 n

/-- a character inside a JSON text; beyond the basic plane two escapes -/
def escapedChar (c : Char) : List Char :=
  if c = '"' then ['\\', '"']
  else if c = '\\' then ['\\', '\\']
  else if c = '\n' then ['\\', 'n']
  else if c = '\r' then ['\\', 'r']
  else if c = '\t' then ['\\', 't']
  else if 0x20 ≤ c.toNat ∧ c.toNat < 0x7f then [c]
  else if c.toNat < 0x10000 then escapedUnit c.toNat
  else
    let n := c.toNat - 0x10000
    escapedUnit (0xd800 + n / 0x400) ++ escapedUnit (0xdc00 + n % 0x400)

def escaped (s : String) : String :=
  String.ofList ('"' :: s.toList.flatMap escapedChar ++ ['"'])

/-- half of a pair, which stands for any text that has one -/
def escapedHalf : String := String.ofList ('"' :: escapedUnit 0xd800 ++ ['"'])

mutual

def print : Json → String
  | null => "null"
  | bool b => if b then "true" else "false"
  | int n => toString n
  | float x => x.text jsonFloat
  | text s => escaped s
  | unpaired => escapedHalf
  | list items => "[" ++ String.intercalate "," (printItems items) ++ "]"
  | object fields => "\x7b" ++ String.intercalate "," (printFields fields) ++ "\x7d"

def printItems : List Json → List String
  | [] => []
  | item :: rest => print item :: printItems rest

def printFields : List (String × Json) → List String
  | [] => []
  | (key, value) :: rest => (escaped key ++ ":" ++ print value) :: printFields rest

end

end Json

end Billfold
