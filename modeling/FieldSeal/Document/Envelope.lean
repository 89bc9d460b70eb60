import FieldSeal.Failure.Client
import FieldSeal.Document.Binary

/-!
The envelope of a single value: a document with the one member `v`. Contexts take and return documents only.
-/

namespace FieldSeal.Envelope

def member : String := "v"

def wrap (value : Json) : Document :=
  [(member, value)]

/-- Other members are ignored. -/
def unwrap (envelope : Document) : Except ClientError Json :=
  match Fields.find? envelope member with
  | some value => .ok value
  | none => .error (.invalidOutput "missing \"v\" field")

def unwrapBinary (envelope : Document) : Except ClientError Binary := do
  let value ← unwrap envelope
  match Binary.ofJson? value with
  | some b => .ok b
  | none => .error (.invalidOutput "\"v\" is not a binary value")

end FieldSeal.Envelope
