/-!
# Faults

What can go wrong below the level of the ledger's own refusals: a value outside the range of the
calendar or of decimal arithmetic, or of the wrong kind.

* `Fault`   the causes, one constructor each
-/

namespace Billfold

/-- a cause of failure that no message of the ledger describes -/
inductive Fault where
  /-- a value of the right kind that has no meaning here -/
  | badValue
  /-- a number or a day outside what its type can hold -/
  | outOfRange
  /-- an operand of a kind the operation does not take -/
  | badKind
  /-- a property asked of a value that has none such -/
  | noProperty
  /-- a month number outside 1 to 12 -/
  | badMonth
  | divisionByZero
  /-- a decimal operation without a result of the working precision -/
  | decimalInvalid
  /-- a decimal result above the largest exponent -/
  | decimalOverflow
  /-- the store answers no statement -/
  | storeDown
  /-- the store refuses a row -/
  | rowRefused
  /-- the store refuses a row: a column that must be filled is empty -/
  | emptyColumn
  /-- a text that cannot be written where it goes -/
  | unwritableText
  /-- a request to what is no address -/
  | badAddress
  /-- a request to an address whose scheme is not served -/
  | unknownScheme
  /-- a request for a connection that stays open -/
  | openConnection
  /-- a request that is sent on too often -/
  | endlessRedirect
deriving DecidableEq, Repr

end Billfold
