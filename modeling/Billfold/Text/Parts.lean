/-!
# Parts of a text

* `splitAt`   the parts of a text between marks
* `joinAt`    parts with marks between them
-/

namespace Billfold.Text

def splitAt (mark : Char) : List Char → List (List Char)
  | [] => [[]]
  | c :: rest =>
    if c = mark then [] :: splitAt mark rest
    else
      match splitAt mark rest with
      | [] => [[c]]
      | part :: parts => (c :: part) :: parts

def joinAt (mark : Char) : List (List Char) → List Char
  | [] => []
  | [part] => part
  | part :: parts => part ++ mark :: joinAt mark parts

end Billfold.Text
