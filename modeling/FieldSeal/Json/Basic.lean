import FieldSeal.Binary64
import FieldSeal.Fields

/-!
Decoded JSON values. In a decoded value the names of an object are distinct and sorted; `Json.merged`
brings any value into that form.
-/

namespace FieldSeal

/-- A numeral without fraction and exponent that fits sixty-four bits, signed or unsigned, is an integer; any
other number is a float. Zero has a sign as a float only. -/
inductive Number where
  | integer (n : Int)
  | float (negative : Bool) (magnitude : Binary64)
  deriving DecidableEq, Repr

inductive Json where
  | null
  | bool (b : Bool)
  | number (n : Number)
  | string (text : String)
  | array (elements : List Json)
  | object (members : List (String × Json))
  deriving Inhabited, Repr

abbrev Document := Fields Json

namespace Json

/-- A record is an object with a member for each field. -/
def record (fields : List (String × Json)) : Json :=
  .object (Fields.ofList fields)

mutual

/-- Of the members of one name the last stays, at every level. -/
def merged : Json → Json
  | .array elements => .array (mergedElements elements)
  | .object members => .object (Fields.ofList (mergedMembers members))
  | value => value

def mergedElements : List Json → List Json
  | [] => []
  | e :: rest => merged e :: mergedElements rest

def mergedMembers : List (String × Json) → List (String × Json)
  | [] => []
  | (name, value) :: rest => (name, merged value) :: mergedMembers rest

end

end Json

end FieldSeal
