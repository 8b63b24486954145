namespace ShardedLedger

-- Why a text is no whole number within its bound.
inductive NumeralError where
  | empty
  | invalidDigit
  | tooLarge
  deriving DecidableEq

namespace NumeralError

def message : NumeralError → String
  | .empty => "cannot parse integer from empty string"
  | .invalidDigit => "invalid digit found in string"
  | .tooLarge => "number too large to fit in target type"

end NumeralError

namespace Numeral

-- The first digit that is wrong or too much decides.
def readDigits (greatest : Nat) : Nat → List Char → Except NumeralError Nat
  | value, [] => .ok value
  | value, c :: rest =>
      if c.isDigit then
        let value := value * 10 + (c.toNat - '0'.toNat)
        if greatest < value then .error .tooLarge else readDigits greatest value rest
      else .error .invalidDigit

-- Decimal digits, behind at most one plus sign.
def parse (greatest : Nat) (text : String) : Except NumeralError Nat :=
  match text.toList with
  | [] => .error .empty
  | ['+'] => .error .invalidDigit
  | '+' :: digits => readDigits greatest 0 digits
  | digits => readDigits greatest 0 digits

end Numeral

end ShardedLedger
