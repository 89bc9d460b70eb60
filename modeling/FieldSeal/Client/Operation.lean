import FieldSeal.Client.Close
import FieldSeal.Client.Drive
import FieldSeal.Document.Envelope

/-!
The operations of a client. Arguments are checked before a context is made.
-/

namespace FieldSeal

inductive Operation where
  | encrypt (database : String) (command : Document)
  | decrypt (response : Document)
  | createDataKey (provider : String) (options : DataKeyOptions)
  | encryptExplicitly (value : Json) (options : EncryptOptions)
  | decryptExplicitly (value : Binary)
  | rewrapDataKeys (filter : Document) (options : RewrapOptions)
  | close

@[reducible]
def Operation.Answer : Operation → Type
  | .encrypt .. => Document
  | .decrypt .. => Document
  | .createDataKey .. => Document
  | .encryptExplicitly .. => Binary
  | .decryptExplicitly .. => Json
  | .rewrapDataKeys .. => Document
  | .close => Unit

namespace Client

variable {σ : Type}

open FieldSeal.Action

/-- A client that bypasses auto-encryption returns the command as it is. -/
def encrypt (c : Client) (database : String) (command : Document) : Action σ ClientError Document := do
  ofExcept c.ensureOpen
  if database = "" then fail (.configuration "database name must not be empty")
  else if c.bypass then pure command
  else c.execute (.encryptCommand database command) (some database)

/-- Responses are decrypted also where auto-encryption is bypassed. -/
def decrypt (c : Client) (response : Document) : Action σ ClientError Document :=
  mapError ClientError.wrap (c.execute (.decryptResponse response) none)

def createDataKey (c : Client) (provider : String) (options : DataKeyOptions) :
    Action σ ClientError Document :=
  if provider = "" then fail (.configuration "KMS provider must not be empty")
  else c.execute (.createDataKey provider options) none

/-- Options that are not valid are a matter of configuration. -/
def invalidOptions (e : EngineError) : ClientError :=
  .configuration e.message

def encryptExplicitly (c : Client) (value : Json) (options : EncryptOptions) :
    Action σ ClientError Binary := do
  orFail invalidOptions options.validate
  let output ← c.execute (.encryptValue (Envelope.wrap value) options) none
  ofExcept (Envelope.unwrapBinary output)

def decryptExplicitly (c : Client) (value : Binary) : Action σ ClientError Json := do
  if value.isEncrypted then
    let output ← c.execute (.decryptValue (Envelope.wrap value.toJson)) none
    ofExcept (Envelope.unwrap output)
  else
    fail (.configuration
      s!"expected an encrypted binary (subtype 6), got subtype {value.subtype.toNat}")

def rewrapDataKeys (c : Client) (filter : Document) (options : RewrapOptions) :
    Action σ ClientError Document := do
  orFail invalidOptions options.validate
  c.execute (.rewrapDataKeys filter options) none

def perform (c : Client) : (op : Operation) → Action σ ClientError op.Answer
  | .encrypt database command => c.encrypt database command
  | .decrypt response => c.decrypt response
  | .createDataKey provider options => c.createDataKey provider options
  | .encryptExplicitly value options => c.encryptExplicitly value options
  | .decryptExplicitly value => c.decryptExplicitly value
  | .rewrapDataKeys filter options => c.rewrapDataKeys filter options
  | .close => c.close

/-- The client after an operation. Closing marks it closed from the start, even if it is then abandoned;
the key service is the last to be closed. -/
def after {α : Type} (c : Client) (op : Operation) (ending : Ending ClientError α) : Client :=
  match op, ending with
  | .close, .done _ | .close, .failed _ =>
    if c.closed then c else { c with closed := true, keyService := c.keyService.close }
  | .close, _ => { c with closed := true }
  | _, _ => c

end Client

end FieldSeal
