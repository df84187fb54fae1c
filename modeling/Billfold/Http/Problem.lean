import Billfold.Json.Basic

/-!
# Problems of a form

* `Problem`      what is wrong with a field
* `FieldError`   a problem, the place of the field, and what was given
* `formErrors`   the errors of a form as a list, by field
-/

namespace Billfold.Http

inductive Problem where
  | missing
  | notJson
  | notObject
  | notText
  /-- a text with half of a pair of code units -/
  | brokenText
  | tooShort
  | notWhole
  | unreadableWhole
  | fraction
  | wholeTooLong
  | notFinite
  | notDecimal
  | unreadableDecimal
  | notFlag
  | unreadableFlag
  | notChoice
  | notDate
  | unreadableDate
  /-- a point in time that is not midnight -/
  | notMidnight
deriving DecidableEq, Repr

namespace Problem

def text : Problem → String
  | missing => "missing"
  | notJson => "json_invalid"
  | notObject => "model_attributes_type"
  | notText => "string_type"
  | brokenText => "string_unicode"
  | tooShort => "string_too_short"
  | notWhole => "int_type"
  | unreadableWhole => "int_parsing"
  | fraction => "int_from_float"
  | wholeTooLong => "int_parsing_size"
  | notFinite => "finite_number"
  | notDecimal => "decimal_type"
  | unreadableDecimal => "decimal_parsing"
  | notFlag => "bool_type"
  | unreadableFlag => "bool_parsing"
  | notChoice => "literal_error"
  | notDate => "date_type"
  | unreadableDate => "date_from_datetime_parsing"
  | notMidnight => "date_from_datetime_inexact"

end Problem

structure FieldError where
  place : List Json
  problem : Problem
  /-- what was given; the whole form if the field is missing -/
  given : Json

namespace FieldError

def json (e : FieldError) : Json :=
  .object [("loc", .list e.place), ("type", .text e.problem.text)]

def name (e : FieldError) : String :=
  match e.place.getLast? with
  | some (.text s) => s
  | _ => ""

end FieldError

/-- whether what was given with each error can be shown -/
def areShowable (errors : List FieldError) : Bool := errors.all (·.given.isPrintable)

def formErrors (errors : List FieldError) : Json :=
  .list ((errors.mergeSort fun a b => !decide (b.name < a.name)).map FieldError.json)

end Billfold.Http
