import FieldSeal.Json.Written

/-!
The JSON grammar over characters. White space is the space, the tab, the line feed and the carriage
return; a string holds no raw control character; a numeral has no superfluous leading zero; nothing but
white space follows the value.
-/

namespace FieldSeal.Json.Reader

def isBlank (c : Char) : Bool :=
  c = ' ' || c = '\t' || c = '\n' || c = '\r'

def skipBlank (cs : List Char) : List Char :=
  cs.dropWhile isBlank

def unit? (a b c d : Char) : Option Nat := do
  let w ← digit? 16 a
  let x ← digit? 16 b
  let y ← digit? 16 c
  let z ← digit? 16 d
  some (w * 4096 + x * 256 + y * 16 + z)

/-- What a backslash and one more character stand for. -/
def shortEscape? (c : Char) : Option Char :=
  match c with
  | '"' => some '"'
  | '\\' => some '\\'
  | '/' => some '/'
  | 'b' => some '\x08'
  | 'f' => some '\x0c'
  | 'n' => some '\n'
  | 'r' => some '\r'
  | 't' => some '\t'
  | _ => none

/-- The pieces up to the closing quote, and what follows it. -/
def string? : List Char → Option (List Piece × List Char)
  | '"' :: rest => some ([], rest)
  | '\\' :: 'u' :: a :: b :: c :: d :: rest => do
    let n ← unit? a b c d
    let (pieces, rest) ← string? rest
    some (.unit n :: pieces, rest)
  | '\\' :: c :: rest => do
    let e ← shortEscape? c
    let (pieces, rest) ← string? rest
    some (.char e :: pieces, rest)
  | c :: rest =>
    if c.toNat < 0x20 || c = '\\' then none
    else (string? rest).map fun (pieces, rest) => (.char c :: pieces, rest)
  | [] => none

/-- The longest run of decimal digits, and what follows it. -/
def digits (cs : List Char) : List Nat × List Char :=
  (cs.takeWhile Char.isDigit |>.map (fun c => c.toNat - '0'.toNat), cs.dropWhile Char.isDigit)

def digits? (cs : List Char) : Option (List Nat × List Char) :=
  let (ds, rest) := digits cs
  if ds = [] then none else some (ds, rest)

/-- A single zero, or digits that start with another one. -/
def whole? (cs : List Char) : Option (List Nat × List Char) := do
  let (ds, rest) ← digits? cs
  guard (ds = [0] ∨ ds.head? ≠ some 0)
  some (ds, rest)

def fraction? (cs : List Char) : Option (List Nat × List Char) :=
  match cs with
  | '.' :: rest => digits? rest
  | rest => some ([], rest)

def signedExponent? (cs : List Char) : Option (Int × List Char) :=
  match cs with
  | '+' :: rest => (digits? rest).map fun (ds, rest) => ((Numeral.natOfDigits ds : Int), rest)
  | '-' :: rest => (digits? rest).map fun (ds, rest) => (-(Numeral.natOfDigits ds : Int), rest)
  | rest => (digits? rest).map fun (ds, rest) => ((Numeral.natOfDigits ds : Int), rest)

def exponent? (cs : List Char) : Option (Option Int × List Char) :=
  match cs with
  | 'e' :: rest => (signedExponent? rest).map fun (e, rest) => (some e, rest)
  | 'E' :: rest => (signedExponent? rest).map fun (e, rest) => (some e, rest)
  | rest => some (none, rest)

def number? (cs : List Char) : Option (Numeral × List Char) := do
  let (negative, rest) := match cs with
    | '-' :: rest => (true, rest)
    | rest => (false, rest)
  let (whole, rest) ← whole? rest
  let (fraction, rest) ← fraction? rest
  let (exponent, rest) ← exponent? rest
  some (⟨negative, whole, fraction, exponent⟩, rest)

/-- The name of a member up to its colon, and what follows. -/
def memberName? (cs : List Char) : Option (List Piece × List Char) :=
  match skipBlank cs with
  | '"' :: rest => do
    let (name, rest) ← string? rest
    match skipBlank rest with
    | ':' :: rest => some (name, rest)
    | _ => none
  | _ => none

mutual

/-- A value and what follows it. `fuel` bounds the steps; twice the length of the text is enough. -/
def value? : Nat → List Char → Option (Written × List Char)
  | 0, _ => none
  | fuel + 1, cs =>
    match skipBlank cs with
    | 'n' :: 'u' :: 'l' :: 'l' :: rest => some (.null, rest)
    | 't' :: 'r' :: 'u' :: 'e' :: rest => some (.bool true, rest)
    | 'f' :: 'a' :: 'l' :: 's' :: 'e' :: rest => some (.bool false, rest)
    | '"' :: rest => (string? rest).map fun (text, rest) => (.string text, rest)
    | '[' :: rest =>
      match skipBlank rest with
      | ']' :: rest => some (.array [], rest)
      | rest => (elements? fuel rest).map fun (elements, rest) => (.array elements, rest)
    | '{' :: rest =>
      match skipBlank rest with
      | '}' :: rest => some (.object [], rest)
      | rest => (members? fuel rest).map fun (members, rest) => (.object members, rest)
    | rest => (number? rest).map fun (n, rest) => (.number n, rest)

/-- The elements up to the closing bracket, at least one. -/
def elements? : Nat → List Char → Option (List Written × List Char)
  | 0, _ => none
  | fuel + 1, cs => do
    let (e, rest) ← value? fuel cs
    match skipBlank rest with
    | ',' :: rest =>
      let (elements, rest) ← elements? fuel rest
      some (e :: elements, rest)
    | ']' :: rest => some ([e], rest)
    | _ => none

/-- The members up to the closing brace, at least one. -/
def members? : Nat → List Char → Option (List (List Piece × Written) × List Char)
  | 0, _ => none
  | fuel + 1, cs => do
    let (name, rest) ← memberName? cs
    let (e, rest) ← value? fuel rest
    match skipBlank rest with
    | ',' :: rest =>
      let (members, rest) ← members? fuel rest
      some ((name, e) :: members, rest)
    | '}' :: rest => some ([(name, e)], rest)
    | _ => none

end

end Reader

/-- The written value of a whole text. -/
def Written.ofText? (text : String) : Option Written :=
  let cs := text.toList
  match Reader.value? (2 * cs.length + 2) cs with
  | some (w, rest) => if Reader.skipBlank rest = [] then some w else none
  | none => none

/-- The decoded value of a whole text. -/
def ofText? (text : String) : Option Json :=
  (Written.ofText? text).bind Written.value?

end FieldSeal.Json
