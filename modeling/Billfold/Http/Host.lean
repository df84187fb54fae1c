import Billfold.Json.Reader
import Billfold.Text.Parts

/-!
# Hosts

A host may be a name or an address in numbers, and what looks like an address must be one.

* `isDottedAddress`   four numbers below 256 with dots between them
* `isColonAddress`    eight groups of hexadecimal digits with colons between them; two colons
                      stand for groups of zero, and the last two groups may be a dotted address
* `isHost`            whether a text can be a host
-/

namespace Billfold.Http

/-! ## addresses with dots -/

/-- a number below 256 without needless zeros -/
def isByteNumeral (cs : List Char) : Bool :=
  !cs.isEmpty && cs.length ≤ 3 && cs.all Char.isDigit && (cs == ['0'] || cs.head? != some '0') &&
    ofNumeral cs < 256

def isDottedAddress (cs : List Char) : Bool :=
  let parts := Text.splitAt '.' cs
  parts.length == 4 && parts.all isByteNumeral

/-- whether digits come next and then `more` times any character and digits again, up to the end;
`inside` tells that a digit came before -/
def isNumberRow : Nat → Bool → List Char → Bool
  | more, inside, [] => inside && more == 0
  | more, inside, c :: rest =>
    (c.isDigit && isNumberRow more true rest) ||
      (match more with
        | more + 1 => inside && isNumberRow more false rest
        | 0 => false)

/-! ## addresses with colons -/

/-- one to four hexadecimal digits -/
def isGroup (cs : List Char) : Bool :=
  !cs.isEmpty && cs.length ≤ 4 && cs.all fun c => (Json.hexDigit? c).isSome

/-- how many groups a row has that may end in a dotted address; none if it is no such row -/
def groupCount? : List (List Char) → Option Nat
  | [] => some 0
  | [part] => if isGroup part then some 1 else if isDottedAddress part then some 2 else none
  | part :: parts => if isGroup part then (groupCount? parts).map (· + 1) else none

/-- the parts of a text between colons; none of an empty text -/
def colonParts (cs : List Char) : List (List Char) := if cs.isEmpty then [] else Text.splitAt ':' cs

/-- what is before and after the first two colons that follow each other -/
def splitGap? : List Char → Option (List Char × List Char)
  | ':' :: ':' :: rest => some ([], rest)
  | c :: rest => (splitGap? rest).map fun (before, after) => (c :: before, after)
  | [] => none

/-- eight groups, or fewer where two colons stand for the others -/
def isGroups (cs : List Char) : Bool :=
  match splitGap? cs with
  | none => groupCount? (colonParts cs) == some 8
  | some (before, after) =>
    (colonParts before).all isGroup &&
      match groupCount? (colonParts after) with
      | some n => (colonParts before).length + n < 8
      | none => false

/-- an address with colons, and maybe the name of a zone behind a percent sign -/
def isColonAddress (cs : List Char) : Bool :=
  match Text.splitAt '%' cs with
  | [address] => isGroups address
  | [address, zone] => !zone.isEmpty && isGroups address
  | _ => false

/-! ## hosts -/

def bracketed? (cs : List Char) : Option (List Char) :=
  match cs with
  | '[' :: rest => if rest.getLast? = some ']' then some rest.dropLast else none
  | _ => none

def isHost (cs : List Char) : Bool :=
  if isNumberRow 3 false cs then isDottedAddress cs
  else
    match bracketed? cs with
    | some address => isColonAddress address
    | none => true

example : isHost "127.0.0.1".toList ∧ ¬isHost "127.0.0.256".toList := by decide
example : isHost "[::1]".toList ∧ isHost "[1:2:3:4:5:6:7:8]".toList ∧ ¬isHost "[1:2]".toList := by
  decide

end Billfold.Http
