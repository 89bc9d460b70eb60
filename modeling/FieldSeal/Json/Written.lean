import FieldSeal.Bytes
import FieldSeal.Json.Basic

/-!
JSON as a text writes it: members in their order with every repetition, characters apart from escaped
UTF-16 units, numerals digit by digit. A written value need not stand for a decoded one: an unpaired
surrogate, a number above the greatest binary64 float, or nesting that is too deep has no value.
-/

namespace FieldSeal.Json

/-- A character of a written string, or a UTF-16 unit in four hexadecimal digits. -/
inductive Piece where
  | char (c : Char)
  | unit (n : Nat)
  deriving DecidableEq, Repr

structure Numeral where
  negative : Bool
  whole : List Nat
  fraction : List Nat
  exponent : Option Int
  deriving DecidableEq, Repr

inductive Written where
  | null
  | bool (b : Bool)
  | number (n : Numeral)
  | string (text : List Piece)
  | array (elements : List Written)
  | object (members : List (List Piece × Written))
  deriving Inhabited, Repr

namespace Piece

def isHighSurrogate (n : Nat) : Bool :=
  0xD800 ≤ n && n < 0xDC00

def isLowSurrogate (n : Nat) : Bool :=
  0xDC00 ≤ n && n < 0xE000

/-- A high surrogate counts only with a low surrogate right after it, a low one only behind a high one. -/
def chars? : List Piece → Option (List Char)
  | [] => some []
  | .char c :: rest => (chars? rest).map (c :: ·)
  | .unit high :: .unit low :: rest =>
    if isHighSurrogate high then
      if isLowSurrogate low then
        (chars? rest).map (Char.ofNat (0x10000 + (high - 0xD800) * 0x400 + (low - 0xDC00)) :: ·)
      else none
    else if isLowSurrogate high then none
    else (chars? (.unit low :: rest)).map (Char.ofNat high :: ·)
  | .unit n :: rest =>
    if isHighSurrogate n || isLowSurrogate n then none else (chars? rest).map (Char.ofNat n :: ·)

def text? (pieces : List Piece) : Option String :=
  (chars? pieces).map String.ofList

end Piece

namespace Numeral

def natOfDigits (digits : List Nat) : Nat :=
  digits.foldl (fun n d => 10 * n + d) 0

/-- The greatest significand, of sixty-four bits. -/
def maxSignificand : Nat := 0xFFFFFFFFFFFFFFFF

/-- Appends digits to `significand` up to the first one that no longer fits, and counts those left over. -/
def appendDigits (significand : Nat) : List Nat → Nat × Nat
  | [] => (significand, 0)
  | d :: rest =>
    let next := significand * 10 + d
    if next ≤ maxSignificand then appendDigits next rest else (significand, rest.length + 1)

/-- The significand and the power of ten it is scaled by. Left over digits of the whole part still count as
places, those of the fraction do not; fractional digits that fit follow even behind left over ones. -/
def scientific (n : Numeral) : Nat × Int :=
  let (whole, extra) := appendDigits 0 n.whole
  let (significand, unread) := appendDigits whole n.fraction
  (significand, extra - (n.fraction.length - unread : Nat) + n.exponent.getD 0)

/-- The float of a numeral, whose significand is rounded before it is scaled. There is none above the
greatest float. -/
def magnitude? (n : Numeral) : Option Binary64 := do
  let (significand, tens) := n.scientific
  (← Binary64.ofNat? significand).scaleByTens? tens

/-- Minus zero is no integer. -/
def number? (n : Numeral) : Option Number :=
  let size := natOfDigits n.whole
  let signed : Int := if n.negative then -size else size
  if n.fraction = [] ∧ n.exponent = none ∧ ¬(n.negative ∧ size = 0)
      ∧ -0x8000000000000000 ≤ signed ∧ signed < 0x10000000000000000 then
    some (.integer signed)
  else n.magnitude?.map (.float n.negative)

end Numeral

namespace Written

mutual

/-- The value as it stands, with repeated names; `levels` is how deep arrays and objects may nest. -/
def resolveWithin? (levels : Nat) : Written → Option Json
  | .null => some .null
  | .bool b => some (.bool b)
  | .number n => n.number?.map .number
  | .string text => (Piece.text? text).map .string
  | .array elements =>
    if levels = 0 then none else (resolveElements? (levels - 1) elements).map .array
  | .object members =>
    if levels = 0 then none else (resolveMembers? (levels - 1) members).map .object

def resolveElements? (levels : Nat) : List Written → Option (List Json)
  | [] => some []
  | e :: rest => do
    let value ← resolveWithin? levels e
    let values ← resolveElements? levels rest
    some (value :: values)

def resolveMembers? (levels : Nat) : List (List Piece × Written) → Option (List (String × Json))
  | [] => some []
  | (name, e) :: rest => do
    let text ← Piece.text? name
    let value ← resolveWithin? levels e
    let values ← resolveMembers? levels rest
    some ((text, value) :: values)

end

/-- How deep arrays and objects may nest. -/
def maxLevels : Nat := 127

def resolve? (w : Written) : Option Json :=
  resolveWithin? maxLevels w

/-- The decoded value: the last member of a name stays. -/
def value? (w : Written) : Option Json :=
  w.resolve?.map merged

end Written

end FieldSeal.Json
