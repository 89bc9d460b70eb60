import FieldSeal.Failure.Client
import FieldSeal.Json.Basic
import FieldSeal.Text.Cut

/-!
The part of a client's configuration that can be stored: its fields with their names and defaults, the form in
which it is stored, and the conditions on it.
-/

namespace FieldSeal

/-- Limits are in milliseconds and bytes. -/
structure Config where
  providers : Registry Document := .empty
  bypass : Bool := false
  keyVaultNamespace : String := "keyvault.datakeys"
  connectTimeout : UInt64 := 10000
  ioTimeout : UInt64 := 30000
  responseLimit : UInt64 := 1048576

namespace Config

instance : Inhabited Config := ⟨{}⟩

inductive Field where
  | providers
  | bypass
  | keyVaultNamespace
  | connectTimeout
  | ioTimeout
  | responseLimit
  deriving DecidableEq, Repr

namespace Field

def all : List Field :=
  [.providers, .bypass, .keyVaultNamespace, .connectTimeout, .ioTimeout, .responseLimit]

def name : Field → String
  | .providers => "kms_providers"
  | .bypass => "bypass_auto_encryption"
  | .keyVaultNamespace => "key_vault_namespace"
  | .connectTimeout => "kms_connect_timeout_ms"
  | .ioTimeout => "kms_io_timeout_ms"
  | .responseLimit => "kms_max_response_bytes"

def ofName? (name : String) : Option Field :=
  all.find? (·.name = name)

end Field

def get (config : Config) : Field → Json
  | .providers => .object (config.providers.entries.map fun (name, doc) => (name, .object doc))
  | .bypass => .bool config.bypass
  | .keyVaultNamespace => .string config.keyVaultNamespace
  | .connectTimeout => .number (.integer config.connectTimeout.toNat)
  | .ioTimeout => .number (.integer config.ioTimeout.toNat)
  | .responseLimit => .number (.integer config.responseLimit.toNat)

def toJson (config : Config) : Json :=
  .object (Fields.ofList (Field.all.map fun field => (field.name, config.get field)))

/-- Database and collection, cut at the first dot. -/
def keyVault (config : Config) : Except ClientError (String × String) :=
  match Text.cut? '.' config.keyVaultNamespace with
  | some (database, collection) =>
    if database = "" ∨ collection = "" then .error invalid else .ok (database, collection)
  | none => .error invalid
where
  invalid : ClientError :=
    .configuration s!"invalid key vault namespace {Text.quoted config.keyVaultNamespace}"

/-- Visits the names of providers in the given order. The first of these conditions that fails is reported. -/
def validateInOrder (config : Config) (names : List String) : Except ClientError Unit := do
  let _ ← config.keyVault
  if names.any String.isEmpty then
    .error (.configuration "KMS provider name must not be empty")
  else if config.connectTimeout = 0 ∨ config.ioTimeout = 0 then
    .error (.configuration "KMS timeouts must be greater than zero")
  else if config.responseLimit = 0 then
    .error (.configuration "kms_max_response_bytes must be greater than zero")
  else .ok ()

def validate (config : Config) : Except ClientError Unit :=
  config.validateInOrder config.providers.names

end Config

end FieldSeal
