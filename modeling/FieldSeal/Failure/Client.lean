import FieldSeal.Failure.Kms

/-!
Failures of an encryption client. Those of the encryption layer carry a fixed beginning in their message, the
failures of other layers carry it once they are wrapped.
-/

namespace FieldSeal

inductive ClientError where
  | configuration (reason : String)
  | engine (error : EngineError)
  | encryption (inner : ClientError)
  | collectionInfo (cause : Fault)
  | marking (cause : Fault)
  | keyVault (cause : Fault)
  | kms (error : KmsError)
  | credentials (provider : String) (cause : Fault)
  | unsupportedPhase (phase : Phase)
  | release (resource : String) (cause : Fault)
  | invalidOutput (reason : String)
  | closed
  deriving DecidableEq, Repr

namespace ClientError

/-- What the message of every failure of the encryption layer begins with. -/
def encryptionLead : String :=
  "Exception in encryption library: "

def message : ClientError → String
  | .configuration reason => s!"invalid configuration: {reason}"
  | .engine error => encryptionLead ++ error.message
  | .encryption inner => encryptionLead ++ inner.message
  | .collectionInfo cause => s!"collection info lookup failed: {cause.message}"
  | .marking cause => s!"command marking failed: {cause.message}"
  | .keyVault cause => s!"key vault query failed: {cause.message}"
  | .kms error => s!"KMS request failed: {error.message}"
  | .credentials provider cause =>
    s!"failed to obtain credentials for KMS provider {provider}: {cause.message}"
  | .unsupportedPhase phase => s!"unsupported encryptor state: {phase.name}"
  | .release resource cause => s!"failed to release {resource}: {cause.message}"
  | .invalidOutput reason => s!"invalid engine output: {reason}"
  | .closed => "encryption client is closed"

/-- The messages of the causes, the nearest first. -/
def causes : ClientError → List String
  | .engine error => [error.message]
  | .encryption inner => inner.message :: causes inner
  | .collectionInfo cause | .marking cause | .keyVault cause | .credentials _ cause
  | .release _ cause => cause.message :: cause.causes
  | .kms error => error.message :: error.causes
  | .configuration _ | .unsupportedPhase _ | .invalidOutput _ | .closed => []

/-- The failure below all wrapping. -/
def root : ClientError → ClientError
  | .encryption inner => root inner
  | e => e

/-- Raised inside the encryption layer, or wrapped. -/
def isEncryption : ClientError → Bool
  | .engine _ | .encryption _ => true
  | _ => false

def isConfiguration (e : ClientError) : Bool :=
  match e.root with
  | .configuration _ => true
  | _ => false

/-- Wraps a failure that is not of the encryption layer. -/
def wrap (e : ClientError) : ClientError :=
  if e.isEncryption then e else .encryption e

end ClientError

end FieldSeal
