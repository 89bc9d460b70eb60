import FieldSeal.Bytes

/-!
Universally unique identifiers: sixteen bytes, written as five groups of lower-case hexadecimal digits with
hyphens between them.
-/

namespace FieldSeal

structure Uuid where
  bytes : Bytes
  size : bytes.length = 16
  deriving DecidableEq

namespace Uuid

def ofBytes? (bytes : Bytes) : Option Uuid :=
  if h : bytes.length = 16 then some ⟨bytes, h⟩ else none

def text (id : Uuid) : String :=
  let group (start count : Nat) : String := Bytes.hex ((id.bytes.drop start).take count)
  "-".intercalate [group 0 4, group 4 2, group 6 2, group 8 2, group 10 6]

/-- Reads the form with hyphens, digits of either case. -/
def ofText? (text : String) : Option Uuid := do
  let cs := text.toList
  guard (cs.length = 36)
  guard ([8, 13, 18, 23].all fun i => cs[i]? = some '-')
  let digits := cs.take 8 ++ (cs.drop 9).take 4 ++ (cs.drop 14).take 4 ++ (cs.drop 19).take 4 ++ cs.drop 24
  ofBytes? (← Bytes.ofHexDigits? digits)

end Uuid

end FieldSeal
