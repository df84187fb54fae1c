/-!
# Fixed widths

* `fits32`, `fits64`   the ranges of signed integers of 32 and 64 bits
-/

namespace Billfold

def fits32 (n : Int) : Bool := -2147483648 ≤ n && n ≤ 2147483647

def fits64 (n : Int) : Bool := -9223372036854775808 ≤ n && n ≤ 9223372036854775807

end Billfold
