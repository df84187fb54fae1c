import Billfold.Json.Order
import Billfold.Json.Printer

/-!
# Metadata maps

An entry carries a free map of metadata.  What the store holds for it is usually an object; a list
of pairs is a map too, and nothing at all is the empty map.

* `Metadata.ofValue`   the map that a stored value stands for
-/

namespace Billfold.Metadata

/-- the key and the value of one element of a list of pairs: a list of two, a text of two
characters, or the keys of an object of two -/
def pairOf : Json → Except Fault (Json × Json)
  | .list [key, value] => .ok (key, value)
  | .list _ => .error .badValue
  | .text s =>
    match s.toList with
    | [a, b] => .ok (.text a.toString, .text b.toString)
    | _ => .error .badValue
  | .object [(key, _), (value, _)] => .ok (.text key, .text value)
  | .object _ => .error .badValue
  | .unpaired => .error .badValue
  | _ => .error .badKind

/-- lists and objects cannot be keys -/
def isKey : Json → Bool
  | .list _ => false
  | .object _ => false
  | _ => true

/-- gives a key its value, in the place of an equal key or at the end -/
def put (key value : Json) : List (Json × Json) → List (Json × Json)
  | [] => [(key, value)]
  | (k, v) :: rest => if k.same key then (k, value) :: rest else (k, v) :: put key value rest

/-- the pairs that a list stands for, one for each key -/
def pairsOf (items : List Json) : Except Fault (List (Json × Json)) :=
  items.foldlM (fun pairs item => do
    let (key, value) ← pairOf item
    if isKey key then return put key value pairs else .error .badKind) []

def keyText : Json → String
  | .text s => s
  | key => key.print

/-- the map that a stored value stands for -/
def ofValue (v : Json) : Except Fault Fields :=
  if v.isTruthy then
    match v with
    | .object fields => .ok fields
    | .list items => do
      return Fields.ofPairs ((← pairsOf items).map fun (key, value) => (keyText key, value))
    | .text _ => .error .badValue
    | .unpaired => .error .badValue
    | _ => .error .badKind
  else
    .ok []

@[simp] theorem ofValue_object (fields : Fields) : ofValue (.object fields) = .ok fields := by
  cases fields <;> rfl

end Billfold.Metadata
