import Billfold.Decimal.Text
import Billfold.Number.Binary64

/-!
# Amounts in the book

The book keeps an amount as the nearest 64-bit binary number, and gives it back with two places.

* `storedAmount?`   the binary number kept for a decimal; zero has no sign
* `bookedAmount`    the decimal given back for a binary number
* `settle?`         an amount as it comes back
-/

namespace Billfold

/-- the binary number kept for a decimal; what is no number cannot be kept -/
def storedAmount? : Decimal → Option Binary64
  | .finite negative coefficient exponent =>
    some (match Binary64.ofDecimal negative coefficient exponent with
      | .finite _ 0 exponent => .finite false 0 exponent
      | x => x)
  | .infinite negative => some (.infinite negative)
  | .nan .. => none

/-- the decimal given back: two places, a half to the even neighbour -/
def bookedAmount : Binary64 → Decimal
  | .finite negative significand exponent =>
    let (n, d) := Binary64.ratio significand exponent
    .finite negative (roundHalfEven (100 * n) d) (-2)
  | .infinite negative => .infinite negative
  | .nan => .nan false false 0

def settle? (x : Decimal) : Option Decimal := (storedAmount? x).map bookedAmount

end Billfold
