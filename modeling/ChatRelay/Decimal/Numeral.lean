import ChatRelay.Failure

namespace ChatRelay.Decimal

def digit? (c : Char) : Option Nat :=
  if '0' ≤ c ∧ c ≤ '9' then some (c.toNat - '0'.toNat) else none

/-- Reads digits after those that wrote `value`. The first character that is no digit, or that takes the
value over the limit, decides. -/
def readDigits (limit value : Nat) : List Char → Except NumeralFault Nat
  | [] => .ok value
  | c :: rest =>
    match digit? c with
    | none => .error .invalidDigit
    | some digit =>
      if limit < 10 * value + digit then .error .tooLarge
      else readDigits limit (10 * value + digit) rest

/-- Reads an optional plus sign and at least one digit, as a number up to `limit`. -/
def readNumeral (limit : Nat) : List Char → Except NumeralFault Nat
  | [] => .error .empty
  | ['+'] => .error .invalidDigit
  | '+' :: digits => readDigits limit 0 digits
  | digits => readDigits limit 0 digits

end ChatRelay.Decimal
