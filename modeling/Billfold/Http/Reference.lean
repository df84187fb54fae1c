import Billfold.Http.Host

/-!
# References

A request is sent to a reference: a whole address with scheme and host, or only the path and the
query behind them.

* `Reference`          a scheme, a host, a path and a query
* `Reference.parse?`   the reference that a text writes, if each of its parts can be one
* `dropDots`           a path without its steps to the same place and to the place above
* `Reference.place`    the path that a reference leads to
-/

namespace Billfold.Http

/-- a scheme, a host, a path and a query; a part that is not written is empty -/
structure Reference where
  scheme : List Char
  host : List Char
  path : List Char
  query : List Char

/-! ## paths -/

/-- one more segment of a path whose segments are given last first -/
def stepTo (above : List (List Char)) (segment : List Char) : List (List Char) :=
  if segment = ['.'] then above
  else if segment = ['.', '.'] then
    match above with
    | [] => []
    | [[]] => [[]]
    | _ :: rest => rest
  else segment :: above

/-- a path without its steps to the same place and to the place above -/
def dropDots (path : List Char) : List Char :=
  Text.joinAt '/' ((Text.splitAt '/' path).foldl stepTo []).reverse

example : dropDots "/a/./b/../c".toList = "/a/c".toList := by decide
example : dropDots "/../a/.".toList = "/a".toList := by decide

/-! ## parts of a reference -/

def isSchemeChar (c : Char) : Bool := c.isAlphanum || c == '+' || c == '-' || c == '.'

/-- the scheme in front of the first colon, which may be empty, and what follows the colon -/
def splitScheme (cs : List Char) : List Char × List Char :=
  let scheme := cs.takeWhile isSchemeChar
  match cs.dropWhile isSchemeChar with
  | ':' :: rest =>
    if scheme.head?.all Char.isAlpha then (scheme.map Char.toLower, rest) else ([], cs)
  | _ => ([], cs)

/-- the authority between two slashes and the path, and what follows it -/
def splitAuthority : List Char → List Char × List Char
  | '/' :: '/' :: rest => rest.span fun c => c != '/' && c != '?' && c != '#'
  | cs => ([], cs)

/-- the host of an authority in square brackets, up to the last of them, and what follows it -/
def splitBrackets? (cs : List Char) : Option (List Char × List Char) :=
  match cs with
  | '[' :: rest =>
    if rest.contains ']' then
      let after := (rest.reverse.takeWhile (· != ']')).reverse
      some (cs.take (cs.length - after.length), after)
    else none
  | _ => none

structure Authority where
  user : List Char
  host : List Char
  port : List Char

def Authority.of (cs : List Char) : Authority :=
  let (user, cs) :=
    if cs.contains '@' then (cs.takeWhile (· != '@'), (cs.dropWhile (· != '@')).drop 1)
    else ([], cs)
  let (host, cs) := (splitBrackets? cs).getD (cs.span fun c => c != ':' && c != '@')
  ⟨user, host, if cs.head? = some ':' then cs.drop 1 else cs⟩

namespace Authority

/-- whether a host and a port can be what the authority says -/
def isValid (a : Authority) : Bool :=
  isHost a.host && (a.port.isEmpty || (wholeOfText? a.port).isSome)

def isEmpty (a : Authority) : Bool := a.user.isEmpty && a.host.isEmpty && a.port.isEmpty

end Authority

/-! ## references -/

def maxReference : Nat := 65536

/-- whether a character may stand in a reference: no control character of ASCII -/
def isReferenceChar (c : Char) : Bool := 0x20 ≤ c.toNat && c.toNat != 0x7f

/-- whether a path can stand alone: it does not look like an authority or a scheme -/
def standsAlone : List Char → Bool
  | '/' :: '/' :: _ => false
  | ':' :: _ => false
  | _ => true

namespace Reference

def parse? (cs : List Char) : Option Reference :=
  let (scheme, rest) := splitScheme cs
  let (authority, rest) := splitAuthority rest
  let authority := Authority.of authority
  let (path, rest) := rest.span fun c => c != '?' && c != '#'
  let query := if rest.head? = some '?' then (rest.drop 1).takeWhile (· != '#') else []
  let alone := scheme.isEmpty && authority.isEmpty
  if cs.length ≤ maxReference && cs.all isReferenceChar && authority.isValid &&
      (!alone || standsAlone path) then
    some ⟨scheme, authority.host, if alone then path else dropDots path, query⟩
  else
    none

/-- whether a reference is a whole address -/
def isWhole (r : Reference) : Bool := !r.scheme.isEmpty && !r.host.isEmpty

/-- the path that a reference leads to; one that is no whole address leads to a place of this
service -/
def place (r : Reference) : List Char :=
  if r.isWhole then r.path else dropDots ('/' :: r.path.dropWhile (· == '/'))

end Reference

end Billfold.Http
