import Billfold.Number.Digits
import Billfold.Text.Printable

/-!
# Quoted text

How a message shows a text: between apostrophes, or between double quotes if the text holds an
apostrophe and no double quote.  The quote and the backslash are escaped, as is every character
that is not printable, by the shortest of `\t`, `\n`, `\r`, `\xhh`, `\uhhhh` and `\Uhhhhhhhh`.

* `quote`   the quoted form of a text
-/

namespace Billfold.Text

/-- the quote a text is put between -/
def quoteMark (s : List Char) : Char :=
  if s.contains '\'' && !s.contains '"' then '"' else '\''

def quotedChar (mark c : Char) : List Char :=
  if c = mark ∨ c = '\\' then ['\\', c]
  else if c = '\t' then ['\\', 't']
  else if c = '\n' then ['\\', 'n']
  else if c = '\r' then ['\\', 'r']
  else if isPrintable c then [c]
  else if c.toNat < 0x100 then ['\\', 'x'] ++ padded 16 2 c.toNat
  else if c.toNat < 0x10000 then ['\\', 'u'] ++ padded 16 4 c.toNat
  else ['\\', 'U'] ++ padded 16 8 c.toNat

/-- a text as a message shows it -/
def quote (s : String) : String :=
  let cs := s.toList
  let mark := quoteMark cs
  String.ofList (mark :: cs.flatMap (quotedChar mark) ++ [mark])

end Billfold.Text
