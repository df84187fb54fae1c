import Billfold.Decimal.Context
import Billfold.Decimal.Text
import Billfold.Error
import Billfold.Json.Shown

/-!
# Amounts

An amount comes in as any value and leaves as a finite decimal.  In the ledger money out is
positive and money in negative.

* `Amount`          an amount as it is given
* `Amount.read`     the finite decimal it stands for; floating-point numbers by their text
* `Nature`          the direction of a movement
* `Amount.signed`   the amount with the sign of its direction, which is checked first
-/

namespace Billfold

/-- an amount as it is given: any value, or a decimal that was read before -/
inductive Amount where
  | value (v : Json)
  | decimal (x : Decimal)

/-- the direction of a movement -/
inductive Nature where
  | inflow
  | outflow
deriving DecidableEq, Repr

namespace Nature

/-- the direction that a value names -/
def of? : Json → Option Nature
  | .text "inflow" => some inflow
  | .text "outflow" => some outflow
  | _ => none

def sign (x : Decimal) : Nature → Except Fault Decimal
  | inflow => x.neg
  | outflow => .ok x

end Nature

namespace Amount

/-- a decimal as a message shows it -/
def shownDecimal (x : Decimal) : String := "Decimal('" ++ x.text ++ "')"

def finite (x : Decimal) (shown : String) : Except Error Decimal :=
  if x.isFinite then .ok x else .error (.refused (.badAmount shown))

def readValue (v : Json) : Except Error Decimal :=
  match v with
  | .null => .error (.refused .noAmount)
  | .bool _ => .error (.refused .noAmount)
  | v =>
    match Decimal.ofText? v.words with
    | some x => finite x v.shown
    | none => .error (.refused (.badAmount v.shown))

/-- the decimal that an amount stands for -/
def read : Amount → Except Error Decimal
  | value v => readValue v
  | decimal x => finite x (shownDecimal x)

/-- the amount with the sign of the direction that `nature` names -/
def signed (a : Amount) (nature : Json) : Except Error Decimal :=
  match Nature.of? nature with
  | none => .error (.refused .badNature)
  | some direction => do Except.liftFault (direction.sign (← a.read))

theorem isFinite_of_finite {x y : Decimal} {shown : String} (h : finite x shown = .ok y) :
    y.isFinite = true := by
  simp only [finite] at h
  split at h
  · next hx => cases h; exact hx
  · cases h

theorem isFinite_of_readValue {v : Json} {x : Decimal} (h : readValue v = .ok x) :
    x.isFinite = true := by
  unfold readValue at h
  split at h
  · cases h
  · cases h
  · split at h
    · exact isFinite_of_finite h
    · cases h

/-- **Only finite decimals are read.** -/
theorem isFinite_of_read {a : Amount} {x : Decimal} (h : a.read = .ok x) : x.isFinite = true := by
  cases a with
  | value v => exact isFinite_of_readValue h
  | decimal y => exact isFinite_of_finite h

end Amount

end Billfold
