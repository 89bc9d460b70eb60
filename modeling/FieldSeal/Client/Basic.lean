import FieldSeal.Credentials
import FieldSeal.Kms.Stream

/-!
Encryption clients. What a client owns is fixed when it is made; only closing changes a client.
-/

namespace FieldSeal

/-- What an auto-encryption client has besides: a collection info retriever and a command marker, and
perhaps an internal client. -/
structure AutoEncryption where
  internalClient : Bool
  deriving DecidableEq, Repr

/-- Key material is decrypted by a service outside the library or by a stream service. -/
inductive KeyService where
  | custom
  | stream (service : StreamService)
  deriving DecidableEq, Repr

def KeyService.close : KeyService → KeyService
  | .custom => .custom
  | .stream service => .stream service.close

structure Client where
  keyService : KeyService
  credentials : Credentials := {}
  bypass : Bool := false
  auto : Option AutoEncryption := none
  closed : Bool := false

namespace Client

/-- Takes credentials and the bypass flag from a valid configuration. -/
def withConfig (c : Client) (config : Config) : Except ClientError Client := do
  config.validate
  .ok { c with credentials := .ofProviders config.providers, bypass := config.bypass }

def withCredentials (c : Client) (credentials : Credentials) : Client :=
  { c with credentials }

def withBypass (c : Client) (bypass : Bool) : Client :=
  { c with bypass }

def withAutoEncryption (c : Client) (auto : AutoEncryption) : Client :=
  { c with auto := some auto }

/-- A client for explicit encryption and data keys. -/
def explicit (keyService : KeyService) (credentials : Credentials) : Client :=
  { keyService, credentials }

/-- A client for the encryption of commands and the decryption of responses as well. -/
def automatic (keyService : KeyService) (credentials : Credentials) (bypass : Bool)
    (auto : AutoEncryption) : Client :=
  { keyService, credentials, bypass, auto := some auto }

def isAuto (c : Client) : Bool :=
  c.auto.isSome

end Client

end FieldSeal
