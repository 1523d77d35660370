/-
MapStore.Text.Numeral — whole numbers written in decimal.

A numeral is an optional sign and one or more ASCII digits, nothing else; a
minus sign is a sign only where negative numbers are admitted. It is read from
the left, so of several faults the leftmost is reported, and a numeral is too
large as soon as the digits read so far exceed the limit.
-/
namespace MapStore.Text.Numeral

/-- Why a text is not a numeral of the wanted range. -/
inductive Error where
  | empty
  | invalidDigit
  | tooLarge
  | tooSmall
  deriving DecidableEq, Repr

/-- The error in words. -/
def Error.message : Error → String
  | .empty => "cannot parse integer from empty string"
  | .invalidDigit => "invalid digit found in string"
  | .tooLarge => "number too large to fit in target type"
  | .tooSmall => "number too small to fit in target type"

/-- Reads digits after digits worth `value`; `beyond` is the fault of
exceeding `limit`. -/
def readDigits (limit : Nat) (beyond : Error) (value : Nat) : List Char → Except Error Nat
  | [] => .ok value
  | c :: rest =>
    if '0' ≤ c ∧ c ≤ '9' then
      let next := value * 10 + (c.toNat - '0'.toNat)
      if limit < next then .error beyond else readDigits limit beyond next rest
    else .error .invalidDigit

/-- Reads one or more digits. -/
def readMagnitude (limit : Nat) (beyond : Error) : List Char → Except Error Nat
  | [] => .error .invalidDigit
  | digits => readDigits limit beyond 0 digits

/-- The number from 0 to `limit` that the text denotes. -/
def parseNat (limit : Nat) (text : String) : Except Error Nat :=
  match text.toList with
  | [] => .error .empty
  | '+' :: digits => readMagnitude limit .tooLarge digits
  | digits => readMagnitude limit .tooLarge digits

/-- The number from -`limit` - 1 to `limit` that the text denotes. -/
def parseInt (limit : Nat) (text : String) : Except Error Int :=
  match text.toList with
  | [] => .error .empty
  | '+' :: digits => (readMagnitude limit .tooLarge digits).map Int.ofNat
  | '-' :: digits => (readMagnitude (limit + 1) .tooSmall digits).map (- Int.ofNat ·)
  | digits => (readMagnitude limit .tooLarge digits).map Int.ofNat

/-- The largest number of 32 bits. -/
def maxU32 : Nat := 0xffffffff

/-- The largest number of 64 bits. -/
def maxU64 : Nat := 0xffffffffffffffff

end MapStore.Text.Numeral
