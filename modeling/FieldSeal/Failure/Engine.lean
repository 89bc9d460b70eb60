import FieldSeal.Context.Phase
import FieldSeal.Failure.Fault

/-!
Failures of an encryption engine and of calls on its contexts.
-/

namespace FieldSeal

inductive EngineError where
  | status (code : Int) (message : String)
  | invalidState (phase : Phase)
  | invalidArgument (reason : String)
  | closed
  deriving DecidableEq, Repr

namespace EngineError

def message : EngineError → String
  | .status code message => s!"engine error {code}: {message}"
  | .invalidState phase => s!"call not valid in state {phase.name}"
  | .invalidArgument reason => s!"invalid argument: {reason}"
  | .closed => "engine handle is closed"

def fault (e : EngineError) : Fault :=
  .plain e.message

end EngineError

end FieldSeal
