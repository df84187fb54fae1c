import Billfold.Number.Binary64

/-!
# JSON values

Whole numbers and binary floating-point numbers are kept apart, and an object is a list of fields
in the order in which their keys first came.

* `Json`                     a value
* `Fields`                   the fields of an object, with `get?`, `set`, `erase`, `ofPairs`
* `Json.isTruthy`            whether a value counts as given: not null, false, zero or empty
* `Json.isPrintable`         whether JSON text can show a value
-/

namespace Billfold

inductive Json where
  | null
  | bool (b : Bool)
  | int (n : Int)
  | float (x : Binary64)
  | text (s : String)
  /-- a text with half of a pair of code units in it, which no encoding can write; its characters
  are not kept -/
  | unpaired
  | list (items : List Json)
  | object (fields : List (String × Json))
deriving Repr, Inhabited

abbrev Fields := List (String × Json)

namespace Fields

def get? (key : String) : Fields → Option Json
  | [] => none
  | (k, v) :: rest => if k = key then some v else get? key rest

/-- the value of a key, null if there is none -/
def get (key : String) (fs : Fields) : Json := (get? key fs).getD .null

/-- gives a key a value: in its place, or at the end -/
def set (key : String) (value : Json) : Fields → Fields
  | [] => [(key, value)]
  | (k, v) :: rest => if k = key then (k, value) :: rest else (k, v) :: set key value rest

def erase (key : String) (fs : Fields) : Fields := fs.filter fun f => f.1 != key

/-- the fields of pairs; the last value of a key counts, in the place of its first -/
def ofPairs (pairs : List (String × Json)) : Fields :=
  pairs.foldl (fun fs f => set f.1 f.2 fs) []

@[simp] theorem get?_nil (key : String) : get? key [] = none := rfl

@[simp] theorem get?_set_self (key : String) (value : Json) (fs : Fields) :
    get? key (set key value fs) = some value := by
  induction fs with
  | nil => simp [set, get?]
  | cons f fs ih => by_cases h : f.1 = key <;> simp [set, get?, h, ih]

theorem get?_set_of_ne {key other : String} (value : Json) (fs : Fields) (h : other ≠ key) :
    get? other (set key value fs) = get? other fs := by
  induction fs with
  | nil => simp [set, get?, h.symm]
  | cons f fs ih =>
    by_cases hf : f.1 = key
    · simp [set, get?, hf, h.symm]
    · simp only [set, if_neg hf, get?, ih]

theorem erase_cons (key : String) (f : String × Json) (fs : Fields) :
    erase key (f :: fs) = if f.1 = key then erase key fs else f :: erase key fs := by
  by_cases h : f.1 = key <;> simp [erase, h]

@[simp] theorem get?_erase_self (key : String) (fs : Fields) : get? key (erase key fs) = none := by
  induction fs with
  | nil => rfl
  | cons f fs ih =>
    rw [erase_cons]
    split
    · exact ih
    · simp [get?, *]

theorem get?_erase_of_ne {key other : String} (fs : Fields) (h : other ≠ key) :
    get? other (erase key fs) = get? other fs := by
  induction fs with
  | nil => rfl
  | cons f fs ih =>
    rw [erase_cons]
    by_cases hf : f.1 = key
    · simp [get?, hf, h.symm, ih]
    · simp [get?, hf, ih]

end Fields

namespace Json

def fields? : Json → Option Fields
  | object fs => some fs
  | _ => none

/-- whether a value counts as given -/
def isTruthy : Json → Bool
  | null => false
  | bool b => b
  | int n => n != 0
  | float x => !x.isZero
  | text s => !s.isEmpty
  | unpaired => true
  | list items => !items.isEmpty
  | object fs => !fs.isEmpty

mutual

/-- whether JSON text can show a value: every number is finite and every text is whole -/
def isPrintable : Json → Bool
  | null => true
  | bool _ => true
  | int _ => true
  | float (.finite ..) => true
  | float _ => false
  | text _ => true
  | unpaired => false
  | list items => areItemsPrintable items
  | object fields => areFieldsPrintable fields

def areItemsPrintable : List Json → Bool
  | [] => true
  | item :: rest => isPrintable item && areItemsPrintable rest

def areFieldsPrintable : List (String × Json) → Bool
  | [] => true
  | (_, value) :: rest => isPrintable value && areFieldsPrintable rest

end

end Json

end Billfold
