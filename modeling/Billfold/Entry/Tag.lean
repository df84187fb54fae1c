import Billfold.Plan.Basic

/-!
# Tags in metadata

The tag of a plan's period is four keys of its entry's metadata.

* `Tag.keys`     the keys
* `Tag.read`     the tag in a metadata map, if there is a whole one
* `Tag.stored`   the fields that write a tag
-/

namespace Billfold.Tag

def groupKey : String := "installment_group"
def indexKey : String := "installment_index"
def totalKey : String := "installments_total"
def modeKey : String := "installment_mode"

def keys : List String := [groupKey, indexKey, totalKey, modeKey]

/-- the whole number of a field; a value that stands for none is no fault, one out of range is -/
def wholeOf (v : Json) : Except Fault (Option Int) :=
  match v.whole with
  | .ok n => .ok (some n)
  | .error .outOfRange => .error .outOfRange
  | .error _ => .ok none

/-- the mode that a field names; nothing given means divided -/
def modeOf (v : Json) : Option Mode := if v.isTruthy then Mode.of? v else some .divide

def read (metadata : Fields) : Except Fault (Option Tag) := do
  let group := metadata.get groupKey
  if !group.isTruthy then return none
  match ← wholeOf (metadata.get indexKey) with
  | none => return none
  | some index =>
    match ← wholeOf (metadata.get totalKey) with
    | none => return none
    | some total =>
      return (modeOf (metadata.get modeKey)).map fun mode => ⟨group.words?, index, total, mode⟩

def stored (t : Tag) : Fields :=
  [(groupKey, .ofWords? t.group), (indexKey, .int t.index), (totalKey, .int t.total),
    (modeKey, .text t.mode.text)]

end Billfold.Tag
