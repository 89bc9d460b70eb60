import FieldSeal.Failure.Engine
import FieldSeal.Text.Quoted

/-!
Failures of a round trip to a key management service.
-/

namespace FieldSeal

inductive KmsError where
  | invalidHost (host : String)
  | connect (host : String) (cause : Fault)
  | io (host : String) (cause : Fault)
  | timeout (host : String) (operation : String)
  | unexpectedEnd (host : String) (remaining : Nat)
  | responseTooLarge (host : String) (limit : Nat)
  | engine (error : EngineError)
  | closed
  | provider (cause : Fault)
  deriving DecidableEq, Repr

namespace KmsError

def message : KmsError → String
  | .invalidHost host => s!"invalid KMS host {Text.quoted host}"
  | .connect host cause => s!"failed to connect to KMS host {host}: {cause.message}"
  | .io host cause => s!"KMS I/O error with {host}: {cause.message}"
  | .timeout host operation => s!"KMS {operation} with {host} timed out"
  | .unexpectedEnd host remaining =>
    s!"KMS host {host} closed the connection with {remaining} bytes outstanding"
  | .responseTooLarge host limit => s!"KMS response from {host} exceeded {limit} bytes"
  | .engine error => s!"engine rejected KMS response: {error.message}"
  | .closed => "key management service is closed"
  | .provider cause => cause.message

/-- What the failure is due to. -/
def cause? : KmsError → Option Fault
  | .connect _ cause | .io _ cause | .provider cause => some cause
  | .engine error => some error.fault
  | _ => none

/-- The messages of the causes, the nearest first. -/
def causes (e : KmsError) : List String :=
  match e.cause? with
  | some cause => cause.message :: cause.causes
  | none => []

def fault (e : KmsError) : Fault :=
  ⟨e.message, e.causes⟩

end KmsError

end FieldSeal
