import Billfold.Json.Basic

/-!
# Log entries

* `Level`      how grave an entry is
* `LogEntry`   a message with its fields
-/

namespace Billfold

inductive Level where
  | debug
  | info
  | warning
  | error
  | critical
deriving DecidableEq, Repr

namespace Level

def text : Level → String
  | debug => "DEBUG"
  | info => "INFO"
  | warning => "WARNING"
  | error => "ERROR"
  | critical => "CRITICAL"

def ofText? : String → Option Level
  | "DEBUG" => some debug
  | "INFO" => some info
  | "WARNING" => some warning
  | "ERROR" => some error
  | "CRITICAL" => some critical
  | _ => none

def rank : Level → Nat
  | debug => 0
  | info => 1
  | warning => 2
  | error => 3
  | critical => 4

/-- whether entries of the level are kept where the threshold is `least` -/
def reaches (level least : Level) : Bool := decide (least.rank ≤ level.rank)

end Level

structure LogEntry where
  level : Level
  message : String
  fields : Fields

end Billfold
