import Billfold.Decimal.Text
import Billfold.Http.Problem
import Billfold.Json.Shown
import Billfold.Number.Width
import Billfold.Plan.Mode
import Billfold.Text.Encoding
import Billfold.Text.Lenient

/-!
# Fields of a form

A form's values are read generously: numbers and yes or no may come as text.

* `readText`, `readWhole`, `readDecimal`, `readFlag`, `readMode`   the kinds of fields
* `optional`                                                       a field that may be null
-/

namespace Billfold.Http

def optional {α : Type} (check : Json → Except Problem α) : Json → Except Problem (Option α)
  | .null => .ok none
  | v => some <$> check v

/-- a text; one with half of a pair in it is taken, though the store will not -/
def readText : Json → Except Problem String
  | .text s => .ok s
  | .unpaired => .ok (String.singleton Text.replacement)
  | _ => .error .notText

/-- a text that is not empty, of whole characters -/
def readNonempty : Json → Except Problem String
  | .text s => if s.isEmpty then .error .tooShort else .ok s
  | .unpaired => .error .brokenText
  | _ => .error .notText

/-! ## numbers -/

def wholeOfFloat (x : Binary64) : Except Problem Int :=
  match x.truncate? with
  | none => .error .notFinite
  | some n =>
    if !x.isWhole then .error .fraction
    else if fits64 n && fits64 (-n) then .ok n
    else .error .wholeTooLong

def readWhole : Json → Except Problem Int
  | .bool b => .ok (if b then 1 else 0)
  | .int n => .ok n
  | .float x => wholeOfFloat x
  | .text s =>
    match lenientWhole s.toList with
    | .ok n => .ok n
    | .error .tooLong => .error .wholeTooLong
    | .error .malformed => .error .unreadableWhole
  | _ => .error .notWhole

def decimalOfText (s : String) : Except Problem Decimal :=
  match Decimal.ofText? s with
  | some x => if x.isFinite then .ok x else .error .notFinite
  | none => .error .unreadableDecimal

def readDecimal : Json → Except Problem Decimal
  | .text s => decimalOfText s
  | .int n => decimalOfText (Json.int n).words
  | .float x => decimalOfText (Json.float x).words
  | _ => .error .notDecimal

/-! ## choices -/

def yesTexts : List String := ["1", "on", "t", "true", "y", "yes"]

def noTexts : List String := ["0", "off", "f", "false", "n", "no"]

/-- the answer that a text gives, in letters of either case -/
def flagOfText (s : String) : Except Problem Bool :=
  let word := String.ofList (s.toList.map Char.toLower)
  if yesTexts.contains word then .ok true
  else if noTexts.contains word then .ok false
  else .error .unreadableFlag

/-- the answer that a whole number gives -/
def flagOfWhole (n : Int) : Except Problem Bool :=
  if n = 0 then .ok false
  else if n = 1 then .ok true
  else .error .unreadableFlag

def readFlag : Json → Except Problem Bool
  | .bool b => .ok b
  | .text s => flagOfText s
  | .int n => if fits64 n then flagOfWhole n else .error .notFlag
  | .float x =>
    match wholeOfFloat x with
    | .ok n => flagOfWhole n
    | .error _ => .error .notFlag
  | _ => .error .notFlag

def readMode (v : Json) : Except Problem Mode :=
  match Mode.of? v with
  | some mode => .ok mode
  | none => .error .notChoice

end Billfold.Http
