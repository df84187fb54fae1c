import Billfold.Fault
import Billfold.Json.Basic

/-!
# Comparing values

Numbers are compared by their exact size, whole or floating-point, and the truth values count as
one and zero.  What is no number has no size; it is equal to itself alone.

* `Quantity`        the size of a number
* `Json.same`       whether two values are equal
* `Json.precedes`   whether a value comes before another; only numbers among themselves, texts
                    among themselves and lists among themselves have an order
* `Json.sortBy`     elements put in the order of their keys
-/

namespace Billfold

inductive Quantity where
  /-- a numerator over a positive denominator -/
  | exact (num : Int) (den : Nat)
  | infinite (negative : Bool)
  | nan

namespace Quantity

/-- the order of two sizes; no number is before or after another -/
def compare : Quantity → Quantity → Option Ordering
  | nan, _ => none
  | _, nan => none
  | infinite a, infinite b => some (if a = b then .eq else if a then .lt else .gt)
  | infinite a, exact .. => some (if a then .lt else .gt)
  | exact .., infinite b => some (if b then .gt else .lt)
  | exact a b, exact c d => some (Ord.compare (a * d) (c * b))

end Quantity

namespace Json

def quantity? : Json → Option Quantity
  | bool b => some (.exact (if b then 1 else 0) 1)
  | int n => some (.exact n 1)
  | float (.finite negative significand exponent) =>
    let (n, d) := Binary64.ratio significand exponent
    some (.exact (if negative then -(n : Int) else n) d)
  | float (.infinite negative) => some (.infinite negative)
  | float .nan => some .nan
  | _ => none

/-- the order of two numbers; none if one of the values has no size to compare -/
def compareSize (x y : Json) : Option Ordering := do
  Quantity.compare (← x.quantity?) (← y.quantity?)

/-! ## equality -/

mutual

def same : Json → Json → Bool
  | null, null => true
  | float .nan, float .nan => true
  -- characters that are not kept cannot tell two texts apart
  | unpaired, unpaired => true
  | text s, text t => s = t
  | list xs, list ys => sameItems xs ys
  | object xs, object ys => xs.length = ys.length && sameFields xs ys
  | x, y => compareSize x y == some .eq

def sameItems : List Json → List Json → Bool
  | [], [] => true
  | x :: xs, y :: ys => same x y && sameItems xs ys
  | _, _ => false

/-- whether each field has an equal one in the other object -/
def sameFields : List (String × Json) → List (String × Json) → Bool
  | [], _ => true
  | (key, x) :: xs, ys =>
    (match Fields.get? key ys with
      | some y => same x y
      | none => false) && sameFields xs ys

end

/-! ## order -/

mutual

/-- whether a value comes before another -/
def precedes : Json → Json → Except Fault Bool
  | text s, text t => .ok (s < t)
  | list xs, list ys => itemsPrecede xs ys
  | x, y =>
    match x.quantity?, y.quantity? with
    | some a, some b => .ok (Quantity.compare a b == some .lt)
    | _, _ => .error .badKind

/-- lists are compared at the first place where they differ -/
def itemsPrecede : List Json → List Json → Except Fault Bool
  | _, [] => .ok false
  | [], _ :: _ => .ok true
  | x :: xs, y :: ys => if same x y then itemsPrecede xs ys else precedes x y

end

/-! ## putting in order

Keys that are not ordered among themselves, such as those that are no number, keep the way they are
put in order visible: the run that the elements begin with is taken as it is, and each of the others
is put into it by halving.
-/

variable {α : Type}

/-- the elements that go on falling, or go on not falling, after one, and what comes after them -/
def runBy (key : α → Json) (falling : Bool) : α → List α → Except Fault (List α × List α)
  | _, [] => .ok ([], [])
  | last, a :: rest => do
    if (← precedes (key a) (key last)) == falling then
      let (run, rest) ← runBy key falling a rest
      return (a :: run, rest)
    else return ([], a :: rest)

/-- puts an element behind all that it does not come before, comparing it with the middle of what
is left; `steps` need be no more than there are elements -/
def insertBy (key : α → Json) (a : α) : Nat → List α → Except Fault (List α)
  | 0, xs => .ok (a :: xs)
  | steps + 1, xs =>
    match xs.drop (xs.length / 2) with
    | [] => .ok [a]
    | b :: back => do
      let front := xs.take (xs.length / 2)
      if ← precedes (key a) (key b) then return (← insertBy key a steps front) ++ b :: back
      else return front ++ b :: (← insertBy key a steps back)

/-- the elements in the order of their keys, those of equal keys as they came.  Where keys have no
order the result depends on which of them are compared: these are, in a list of fewer than 64. -/
def sortBy (key : α → Json) (xs : List α) : Except Fault (List α) :=
  match xs with
  | a :: b :: rest => do
    let falling ← precedes (key b) (key a)
    let (run, rest) ← runBy key falling a (b :: rest)
    let start := if falling then (a :: run).reverse else a :: run
    rest.foldlM (fun sorted a => insertBy key a sorted.length sorted) start
  | _ => .ok xs

end Json

end Billfold
