import Billfold.Http.Reference
import Billfold.Json.Shown
import Billfold.Text.Encoding

/-!
# Targets of requests

* `percentDecode`     a text without its percent escapes
* `Target`            a path and the values of a query
* `Target.of`         the target of a request; given parameters take the place of a query
* `Target.label`      the path as the counters name it
* `Target.redirect`   the target that a request is sent on to
-/

namespace Billfold.Http

/-! ## percent escapes -/

/-- the bytes of a text, percent escapes replaced by the bytes that they write -/
def percentBytes : List Char → List UInt8
  | '%' :: a :: b :: rest =>
    match Json.hexDigit? a, Json.hexDigit? b with
    | some high, some low => UInt8.ofNat (16 * high + low) :: percentBytes rest
    | _, _ => UInt8.ofNat 37 :: percentBytes (a :: b :: rest)
  | c :: rest => c.toString.toUTF8.toList ++ percentBytes rest
  | [] => []

def percentDecode (cs : List Char) : List Char := Text.ofUtf8 (percentBytes cs)

/-! ## queries -/

/-- a name or a value of a query; plus signs are spaces -/
def queryText (cs : List Char) : String :=
  String.ofList (percentDecode (cs.map fun c => if c = '+' then ' ' else c))

def queryPair (cs : List Char) : String × String :=
  (queryText (cs.takeWhile (· != '=')), queryText ((cs.dropWhile (· != '=')).drop 1))

def queryPairs (cs : List Char) : List (String × String) :=
  ((Text.splitAt '&' cs).filter fun part => !part.isEmpty).map queryPair

def paramText : Json → String
  | .null => ""
  | .bool b => if b then "true" else "false"
  | v => v.words

def paramTexts : Json → List String
  | .list values => values.map paramText
  | v => [paramText v]

def paramPairs (params : List (String × Json)) : List (String × String) :=
  params.flatMap fun (name, value) => (paramTexts value).map fun text => (name, text)

/-! ## targets -/

structure Target where
  path : List Char
  query : List (String × String)

namespace Target

/-- the path that a written path stands for: escapes may be written as escapes once more, and an
empty path is the root -/
def pathOf (written : List Char) : List Char :=
  percentDecode (percentDecode (if written.isEmpty then ['/'] else written))

def of (r : Reference) (params : Option (List (String × Json))) : Target where
  path := pathOf r.place
  query :=
    match params with
    | some params => paramPairs params
    | none => queryPairs r.query

/-- the last value of a name -/
def param? (t : Target) (name : String) : Option String :=
  (t.query.reverse.find? fun (key, _) => key == name).map Prod.snd

/-! ## paths in other words -/

/-- a character of a path in front of a query: what would end the path is escaped -/
def escapeEnd : Char → List Char
  | '?' => ['%', '3', 'F']
  | '#' => ['%', '2', '3']
  | c => [c]

def label (t : Target) : String :=
  String.ofList ((t.path.flatMap escapeEnd).filter fun c => c != '\t' && c != '\n' && c != '\r')

/-- the target that a request is sent on to with the path in place of its own -/
def redirect (t : Target) (path : List Char) : Target :=
  { t with path := pathOf (dropDots (path.flatMap escapeEnd)) }

end Target

end Billfold.Http
