import Billfold.Json.Basic
import Billfold.Number.Shortest
import Billfold.Text.Quoted

/-!
# Values in messages

How a value is written into a message, and the text that stands for a value where one is needed.

* `Json.shown`   a value in a message: texts quoted, lists and objects with their elements shown
* `Json.words`   a value as text: a text is itself, everything else as shown
* `Json.words?`, `Json.ofWords?`   the same where it has to be written, and the value back
-/

namespace Billfold

/-- floating-point numbers in messages: no exponent from `0.0001` on and below `10 ^ 16` -/
def shownFloat : FloatFormat where
  plainFrom := -4
  plainBelow := 16
  exponentDigits := 2
  infinity := "inf"
  nan := "nan"

namespace Json

def joined (parts : List String) : String := String.intercalate ", " parts

def shownBool (b : Bool) : String := if b then "True" else "False"

mutual

def shown : Json → String
  | null => "None"
  | bool b => shownBool b
  | int n => toString n
  | float x => x.text shownFloat
  | text s => Text.quote s
  | unpaired => Text.quote "\ufffd"
  | list items => "[" ++ joined (shownItems items) ++ "]"
  | object fields => "\x7b" ++ joined (shownFields fields) ++ "\x7d"

def shownItems : List Json → List String
  | [] => []
  | item :: rest => shown item :: shownItems rest

def shownFields : List (String × Json) → List String
  | [] => []
  | (key, value) :: rest => (Text.quote key ++ ": " ++ shown value) :: shownFields rest

end

def words : Json → String
  | text s => s
  | value => value.shown

/-- a value as text that can be written; none for half of a pair -/
def words? : Json → Option String
  | unpaired => none
  | value => some value.words

/-- the text that was kept of a value -/
def ofWords? : Option String → Json
  | some s => text s
  | none => unpaired

@[simp] theorem words?_ofWords? (s : Option String) : (ofWords? s).words? = s := by
  cases s <;> rfl

theorem words_of_words? {v : Json} {s : String} (h : v.words? = some s) : v.words = s := by
  cases v with
  | unpaired => cases h
  | _ => exact Option.some.inj h

end Json

end Billfold
