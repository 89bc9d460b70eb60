import FieldSeal.DataKey.Material
import FieldSeal.Json.Basic

/-!
Options for creating data keys and for rewrapping them under a new master key.
-/

namespace FieldSeal

structure DataKeyOptions where
  keyAltNames : List String := []
  masterKey : Option Document := none
  keyMaterial : Option KeyMaterial := none

/-- Without a provider each data key stays under its own. -/
structure RewrapOptions where
  provider : Option String := none
  masterKey : Option Document := none

/-- A master key belongs to a provider, so it needs one. -/
def RewrapOptions.validate (options : RewrapOptions) : Except EngineError Unit :=
  match options.provider, options.masterKey with
  | none, some _ => .error (.invalidArgument "missing the provider for the new master key")
  | some "", _ => .error (.invalidArgument "provider must not be empty")
  | _, _ => .ok ()

end FieldSeal
