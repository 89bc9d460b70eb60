import FieldSeal.Text.Hidden

/-!
Text in double quotes, as error messages show it. Every character that has no printed form, or that would
end the quotation, is written as an escape.
-/

namespace FieldSeal.Text

/-- A hidden character is written as its code point in lower-case hexadecimal digits. -/
def escape (c : Char) : List Char :=
  if c = '"' then ['\\', '"']
  else if c = '\\' then ['\\', '\\']
  else if c = '\t' then ['\\', 't']
  else if c = '\r' then ['\\', 'r']
  else if c = '\n' then ['\\', 'n']
  else if c = '\x00' then ['\\', '0']
  else if isHidden c then ['\\', 'u', '\x7b'] ++ Nat.toDigits 16 c.toNat ++ ['\x7d']
  else [c]

def quoted (text : String) : String :=
  String.ofList (['"'] ++ text.toList.flatMap escape ++ ['"'])

end FieldSeal.Text
