/-!
Failures that come from outside the library: a collaborator, a connector, a stream.
-/

namespace FieldSeal

/-- A message, and the messages of what caused it, the nearest cause first. -/
structure Fault where
  message : String
  causes : List String
  deriving DecidableEq, Repr

/-- A failure without further cause. -/
def Fault.plain (message : String) : Fault :=
  ⟨message, []⟩

end FieldSeal
