import FieldSeal.Encryption.Algorithm
import FieldSeal.Uuid

/-!
Options for the explicit encryption of a single value.
-/

namespace FieldSeal

structure EncryptOptions where
  algorithm : Algorithm
  keyId : Option Uuid := none
  keyAltName : Option String := none
  contentionFactor : Option Int := none
  queryType : Option QueryType := none
  deriving DecidableEq

namespace EncryptOptions

/-- Either the id or the alternate name tells the data key, never both. -/
def checkKey (options : EncryptOptions) : Except EngineError Unit :=
  match options.keyId, options.keyAltName with
  | some _, some _ => .error (.invalidArgument "key_id and key_alt_name are mutually exclusive")
  | none, none => .error (.invalidArgument "one of key_id or key_alt_name is required")
  | none, some "" => .error (.invalidArgument "key_alt_name must not be empty")
  | _, _ => .ok ()

/-- Contention factor and query type belong to queryable algorithms. -/
def checkQuery (options : EncryptOptions) : Except EngineError Unit :=
  if options.algorithm.isQueryable then .ok ()
  else if options.contentionFactor.isSome then
    .error (.invalidArgument
      s!"contention factor is not valid with algorithm {options.algorithm.name}")
  else if options.queryType.isSome then
    .error (.invalidArgument s!"query type is not valid with algorithm {options.algorithm.name}")
  else .ok ()

def checkContention (options : EncryptOptions) : Except EngineError Unit :=
  if options.contentionFactor.any (· < 0) then
    .error (.invalidArgument "contention factor must not be negative")
  else .ok ()

def validate (options : EncryptOptions) : Except EngineError Unit := do
  options.checkKey
  options.checkQuery
  options.checkContention

end EncryptOptions

end FieldSeal
