import Billfold.Error
import Billfold.Json.Shown
import Billfold.Json.Whole

/-!
# Installment mode and count

* `Mode`          an amount cut into parts, or repeated in full
* `Mode.read`     the mode a value names; nothing given means the default
* `readCount`     the number of periods: at least one, and at most the limit
-/

namespace Billfold

/-- what the periods of a plan carry -/
inductive Mode where
  /-- each a part of the amount -/
  | divide
  /-- each the full amount -/
  | replicate
deriving DecidableEq, Repr

namespace Mode

def text : Mode → String
  | divide => "divide"
  | replicate => "replicate"

def ofText? : String → Option Mode
  | "divide" => some divide
  | "replicate" => some replicate
  | _ => none

theorem ofText?_text (m : Mode) : ofText? m.text = some m := by cases m <;> rfl

def of? : Json → Option Mode
  | .text s => ofText? s
  | _ => none

def isAbsent : Json → Bool
  | .null => true
  | .text s => s.isEmpty
  | _ => false

def read (default : String) (v : Json) : Except Error Mode :=
  if isAbsent v then
    match ofText? default with
    | some m => .ok m
    | none => .error (.fault .badValue)
  else
    match of? v with
    | some m => .ok m
    | none => .error (.refused (.unknownMode v.shown))

end Mode

/-! ## counts -/

/-- the whole number that a count stands for; nothing given means one -/
def wholeCount (v : Json) : Except Error Int :=
  match v with
  | .null => .ok 1
  | v =>
    match v.whole with
    | .ok n => .ok n
    | .error .outOfRange => .error (.fault .outOfRange)
    | .error _ => .error (.refused (.badCount v.shown))

/-- a count raised to one and held against the limit -/
def clampCount (limit count : Int) : Except Error Nat :=
  if limit < max 1 count then .error (.refused (.countLimit limit)) else .ok (max 1 count).toNat

def readCount (limit : Int) (v : Json) : Except Error Nat := do
  clampCount limit (← wholeCount v)

theorem clampCount_pos {limit count : Int} {n : Nat} (h : clampCount limit count = .ok n) :
    1 ≤ n := by
  simp only [clampCount] at h
  split at h
  · cases h
  · cases h; omega

theorem clampCount_le {limit count : Int} {n : Nat} (h : clampCount limit count = .ok n) :
    (n : Int) ≤ limit := by
  simp only [clampCount] at h
  split at h
  · cases h
  · cases h; omega

end Billfold
