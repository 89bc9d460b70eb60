import FieldSeal.Bytes

/-!
Unsigned numerals of a given radix with an upper bound. A numeral is an optional single plus sign and
at least one digit, with any number of leading zeros.
-/

namespace FieldSeal.Numeral

inductive Defect where
  | empty
  | invalidDigit
  | tooLarge
  deriving DecidableEq, Repr

def Defect.message : Defect → String
  | .empty => "cannot parse integer from empty string"
  | .invalidDigit => "invalid digit found in string"
  | .tooLarge => "number too large to fit in target type"

/-- Reads digits from left to right onto the value read so far. The first character that is no digit,
or that takes the value above `bound`, decides the failure. -/
def readDigits (radix bound : Nat) : Nat → List Char → Except Defect Nat
  | value, [] => .ok value
  | value, c :: rest =>
    match digit? radix c with
    | none => .error .invalidDigit
    | some d =>
      let next := value * radix + d
      if bound < next then .error .tooLarge else readDigits radix bound next rest

def read (radix bound : Nat) (text : String) : Except Defect Nat :=
  match text.toList with
  | [] => .error .empty
  | ['+'] => .error .invalidDigit
  | '+' :: digits => readDigits radix bound 0 digits
  | digits => readDigits radix bound 0 digits

end FieldSeal.Numeral
