import Billfold.Amount
import Billfold.Calendar.Instant
import Billfold.Calendar.Month
import Billfold.Plan.Mode

/-!
# Installment plans

One amount in dated periods.  A divided amount is cut in whole cents: every period gets the
quotient, and the first ones a cent of the remainder each, so nothing of it is lost and nothing
added.

* `Tag`             marks an entry as one period of a plan
* `Line`, `Plan`    the periods of a plan
* `divide`          an amount cut into parts
* `Plan.of`         a plan from values as they are given
* `Plan.split`      the same, where name and group may be missing
* `Plan.total`      the sum of the lines
-/

namespace Billfold

/-- marks an entry as one period of a plan; `index` counts from one -/
structure Tag where
  /-- none for a text with half of a pair in it -/
  group : Option String
  index : Int
  total : Int
  mode : Mode
deriving DecidableEq, Repr

structure Line where
  index : Nat
  amount : Decimal
  date : Date
  suffix : String
  name : String
deriving DecidableEq

/-- an amount in dated periods -/
structure Plan where
  group : String
  mode : Mode
  lines : List Line
deriving DecidableEq

/-! ## cutting an amount -/

def cent : Decimal := .finite false 1 (-2)

/-- the whole cents of a magnitude, a fraction of a cent dropped -/
def wholeCents (x : Decimal) : Except Fault Int := do
  (← (← x.abs).mul (.ofNat 100)).truncate

def centParts (cents count : Nat) : List Nat :=
  (List.range count).map fun i => cents / count + if i < cents % count then 1 else 0

def centAmount (negative : Bool) (cents : Nat) : Except Fault Decimal := do
  (← (Decimal.ofNat cents).mul cent).mul (.finite negative 1 0)

def divide (x : Decimal) (count : Int) : Except Fault (List Decimal) := do
  let negative ← x.isNegative
  let cents ← wholeCents x
  if count = 0 then .error .divisionByZero
  else (centParts cents.toNat count.toNat).mapM (centAmount negative)

theorem length_centParts (cents count : Nat) : (centParts cents count).length = count := by
  simp [centParts]

/-! ## plans -/

/-- the place of a period among all, as shown behind its name -/
def suffix (index count : Nat) : String := s!"({index}/{count})"

def lineOf (start : Date) (name : String) (count i : Nat) (amount : Decimal) :
    Except Fault Line := do
  let date ← start.addMonths i
  let suffix := suffix (i + 1) count
  return { index := i + 1, amount, date, suffix, name := name ++ " " ++ suffix }

/-- the periods that carry the amounts, one month after another -/
def linesOf (start : Date) (name : String) (count : Nat) (amounts : List Decimal) :
    Except Fault (List Line) :=
  (amounts.zipIdx).mapM fun (amount, i) => lineOf start name count i amount

/-- what counts for every plan: the limit of periods and the text of the default mode -/
structure PlanRules where
  maxCount : Int
  defaultMode : String

namespace Plan

def amounts (mode : Mode) (x : Decimal) (count : Nat) : Except Fault (List Decimal) :=
  match mode with
  | .replicate => .ok (List.replicate count x)
  | .divide => divide x count

/-- a plan from an amount, a count and a mode as they are given, checked in this order -/
def of (rules : PlanRules) (amount : Amount) (count mode : Json) (start : Date)
    (name group : String) : Except Error Plan := do
  let x ← amount.read
  let n ← readCount rules.maxCount count
  let mode ← Mode.read rules.defaultMode mode
  let amounts ← Except.liftFault (amounts mode x n)
  let lines ← Except.liftFault (linesOf start name n amounts)
  return { group, mode, lines }

/-- the group that is given, or the fresh one where there is none or an empty one -/
def groupOr (fresh : String) : Option String → String
  | some given => if given.isEmpty then fresh else given
  | none => fresh

/-- a plan under the name and in the group that may be given -/
def split (rules : PlanRules) (amount : Amount) (count mode : Json) (start : Date)
    (name group : Option String) (fresh : String) : Except Error Plan :=
  of rules amount count mode start (name.getD "") (groupOr fresh group)

def tag (p : Plan) (line : Line) : Tag := ⟨some p.group, line.index, p.lines.length, p.mode⟩

def total (p : Plan) : Except Fault Decimal := Decimal.sum (p.lines.map Line.amount)

end Plan

end Billfold
