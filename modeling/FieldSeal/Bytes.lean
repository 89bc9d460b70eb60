/-!
Byte strings and their hexadecimal text.
-/

namespace FieldSeal

abbrev Bytes := List UInt8

/-- The value of a character as a digit of `radix`, at most thirty-six; letters of either case are digits
from ten on. -/
def digit? (radix : Nat) (c : Char) : Option Nat :=
  let value? :=
    if '0' ≤ c ∧ c ≤ '9' then some (c.toNat - '0'.toNat)
    else if 'a' ≤ c ∧ c ≤ 'z' then some (c.toNat - 'a'.toNat + 10)
    else if 'A' ≤ c ∧ c ≤ 'Z' then some (c.toNat - 'A'.toNat + 10)
    else none
  value?.filter (· < radix)

/-- The lower-case digit of a value below sixteen. -/
def hexDigit (n : Nat) : Char :=
  if n < 10 then Char.ofNat ('0'.toNat + n) else Char.ofNat ('a'.toNat + (n - 10))

namespace Bytes

/-- Two lower-case digits, the high half first. -/
def hexOfByte (b : UInt8) : List Char :=
  [hexDigit (b.toNat / 16), hexDigit (b.toNat % 16)]

def hex (bytes : Bytes) : String :=
  String.ofList (bytes.flatMap hexOfByte)

/-- Reads pairs of digits of either case. -/
def ofHexDigits? : List Char → Option Bytes
  | [] => some []
  | [_] => none
  | high :: low :: rest => do
    let h ← digit? 16 high
    let l ← digit? 16 low
    let bytes ← ofHexDigits? rest
    some (UInt8.ofNat (16 * h + l) :: bytes)

def ofHex? (text : String) : Option Bytes :=
  ofHexDigits? text.toList

end Bytes

end FieldSeal
