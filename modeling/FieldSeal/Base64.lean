import FieldSeal.Bytes

/-!
Base64 over the standard alphabet, with padding. Only canonical text is read: the padding is
complete and the unused bits of the last symbol are zero. `decode?` and `encode` are inverse to each other,
`diagnose` finds what is wrong with a text that `decode?` refuses.
-/

namespace FieldSeal.Base64

/-- The symbol of a value below sixty-four. -/
def symbol (n : Nat) : Char :=
  if n < 26 then Char.ofNat ('A'.toNat + n)
  else if n < 52 then Char.ofNat ('a'.toNat + (n - 26))
  else if n < 62 then Char.ofNat ('0'.toNat + (n - 52))
  else if n = 62 then '+'
  else '/'

def value? (c : Char) : Option Nat :=
  if 'A' ≤ c ∧ c ≤ 'Z' then some (c.toNat - 'A'.toNat)
  else if 'a' ≤ c ∧ c ≤ 'z' then some (c.toNat - 'a'.toNat + 26)
  else if '0' ≤ c ∧ c ≤ '9' then some (c.toNat - '0'.toNat + 52)
  else if c = '+' then some 62
  else if c = '/' then some 63
  else none

def encodeChars : Bytes → List Char
  | [] => []
  | [a] => [symbol (a.toNat / 4), symbol (a.toNat % 4 * 16), '=', '=']
  | [a, b] =>
    [symbol (a.toNat / 4), symbol (a.toNat % 4 * 16 + b.toNat / 16), symbol (b.toNat % 16 * 4), '=']
  | a :: b :: c :: rest =>
    symbol (a.toNat / 4) :: symbol (a.toNat % 4 * 16 + b.toNat / 16) ::
      symbol (b.toNat % 16 * 4 + c.toNat / 64) :: symbol (c.toNat % 64) :: encodeChars rest

def encode (bytes : Bytes) : String :=
  String.ofList (encodeChars bytes)

def decodeChars? : List Char → Option Bytes
  | [] => some []
  | [a, b, '=', '='] => do
    let w ← value? a
    let x ← value? b
    guard (x % 16 = 0)
    some [UInt8.ofNat (w * 4 + x / 16)]
  | [a, b, c, '='] => do
    let w ← value? a
    let x ← value? b
    let y ← value? c
    guard (y % 4 = 0)
    some [UInt8.ofNat (w * 4 + x / 16), UInt8.ofNat (x % 16 * 16 + y / 4)]
  | a :: b :: c :: d :: rest => do
    let w ← value? a
    let x ← value? b
    let y ← value? c
    let z ← value? d
    let bytes ← decodeChars? rest
    some (UInt8.ofNat (w * 4 + x / 16) :: UInt8.ofNat (x % 16 * 16 + y / 4) ::
      UInt8.ofNat (y % 4 * 64 + z) :: bytes)
  | _ => none

def decode? (text : String) : Option Bytes :=
  decodeChars? text.toList

/-- What is wrong with a text. Offsets and symbols are of its UTF-8 bytes. -/
inductive Defect where
  | symbol (byte : UInt8) (offset : Nat)
  | length (count : Nat)
  | padding
  | lastSymbol (byte : UInt8) (offset : Nat)
  deriving DecidableEq, Repr

def Defect.message : Defect → String
  | .symbol byte offset => s!"Invalid symbol {byte.toNat}, offset {offset}."
  | .length count => s!"Invalid input length: {count}"
  | .padding => "Invalid padding"
  | .lastSymbol byte offset => s!"Invalid last symbol {byte.toNat}, offset {offset}."

def isSymbol (byte : UInt8) : Bool :=
  (value? (Char.ofNat byte.toNat)).isSome

def pad : UInt8 := 61

/-- A last byte that stands alone in its group and is neither a symbol nor padding. -/
def strayEnd? (bytes : Bytes) : Option Defect := do
  let last ← bytes.getLast?
  guard (bytes.length % 4 = 1 ∧ last ≠ pad ∧ ¬isSymbol last)
  some (.symbol last (bytes.length - 1))

/-- The first byte that is no symbol, counted from `offset`. -/
def foreign? (offset : Nat) : Bytes → Option Defect
  | [] => none
  | b :: rest => if isSymbol b then foreign? (offset + 1) rest else some (.symbol b offset)

/-- The first misplaced byte of the last group: padding in one of its first two places, anything
but padding after padding, or no symbol. `firstPad` is the offset of the group's first padding so far. -/
def misplaced? (start offset : Nat) (firstPad : Option Nat) : Bytes → Option Defect
  | [] => none
  | b :: rest =>
    if b = pad then
      if offset < start + 2 then some (.symbol pad offset)
      else misplaced? start (offset + 1) (firstPad <|> some offset) rest
    else
      match firstPad with
      | some i => some (.symbol pad i)
      | none => if isSymbol b then misplaced? start (offset + 1) none rest else some (.symbol b offset)

/-- Where the last group starts: at the last multiple of four below the length. -/
def lastGroup (length : Nat) : Nat :=
  (length - 1) / 4 * 4

/-- The first defect of a text that is no encoding: a stray last byte, a byte that is no symbol before the
last group, a misplaced byte in it, too few symbols, incomplete padding, and at last unused bits
that are set. -/
def diagnose (bytes : Bytes) : Defect :=
  let start := lastGroup bytes.length
  let group := bytes.drop start
  let symbols := group.filter (· ≠ pad)
  let found :=
    strayEnd? bytes
    <|> foreign? 0 (bytes.take start)
    <|> misplaced? start start none group
    <|> (if symbols.length < 2 then some (.length (start + symbols.length)) else none)
    <|> (if group.length % 4 ≠ 0 then some .padding else none)
  found.getD (.lastSymbol (symbols.getLastD 0) (start + symbols.length - 1))

def decode (text : String) : Except Defect Bytes :=
  match decode? text with
  | some bytes => .ok bytes
  | none => .error (diagnose text.toUTF8.toList)

end FieldSeal.Base64
