import FieldSeal.Config.Basic
import FieldSeal.Interaction.Action
import FieldSeal.Kms.Address

/-!
A key management service over byte streams. Each round trip has a connection of its own: connect, write the
message, flush, read until the decryptor needs no more, shut down.
-/

namespace FieldSeal

/-- Limits are in milliseconds and bytes. -/
structure StreamService where
  connectLimit : Nat
  ioLimit : Nat
  responseLimit : Nat
  closed : Bool := false
  deriving DecidableEq, Repr

namespace StreamService

def ofValidConfig (config : Config) : StreamService where
  connectLimit := config.connectTimeout.toNat
  ioLimit := config.ioTimeout.toNat
  responseLimit := config.responseLimit.toNat

def standard : StreamService :=
  ofValidConfig {}

def ofConfig (config : Config) : Except ClientError StreamService := do
  config.validate
  .ok (ofValidConfig config)

def withTimeouts (s : StreamService) (connectLimit ioLimit : Nat) : StreamService :=
  { s with connectLimit, ioLimit }

def withResponseLimit (s : StreamService) (responseLimit : Nat) : StreamService :=
  { s with responseLimit }

def close (s : StreamService) : StreamService :=
  { s with closed := true }

/-- The most bytes that one read asks for. -/
def chunkSize : Nat := 4096

variable {σ α : Type}

open FieldSeal.Action

/-- Runs an action under a limit, and fails with a timeout when the limit is reached. -/
def inTime (host operation : String) (limit : Nat) (p : Action σ KmsError α) : Action σ KmsError α := do
  match ← within limit p with
  | some a => pure a
  | none => fail (.timeout host operation)

/-- Offers what is left of the message until all of it is taken. -/
def writeAll (host : String) : Bytes → Action σ KmsError Unit
  | [] => pure ()
  | b :: rest => do
    match ← await (.write (b :: rest)) with
    | .error cause => fail (.io host cause)
    | .ok ⟨0, _⟩ => fail (.io host (.plain "write zero"))
    | .ok ⟨n + 1, _⟩ => writeAll host (rest.drop n)
termination_by message => message.length
decreasing_by grind

def flush (host : String) : Action σ KmsError Unit :=
  await .flush >>= orFail (.io host)

def read (host : String) (want : Nat) : Action σ KmsError Bytes := do
  let bytes ← await (.read want) >>= orFail (.io host)
  pure bytes.val

/-- Reads and feeds until the decryptor needs no more; `room` is what the response limit still allows. -/
def receive (s : StreamService) (host : String) (room : Nat) : Action σ KmsError Unit := do
  let needed ← ask .bytesNeeded
  if needed = 0 then pure ()
  else
    match room with
    | 0 => fail (.responseTooLarge host s.responseLimit)
    | room + 1 =>
      match ← inTime host "read" s.ioLimit (read host (min needed (min chunkSize (room + 1)))) with
      | [] => fail (.unexpectedEnd host needed)
      | b :: rest =>
        ask (.feed (b :: rest)) >>= orFail .engine
        receive s host (room - rest.length)
termination_by room
decreasing_by omega

/-- Opens a connection to where the request is to be sent. -/
def connect (s : StreamService) (request : KeyRequest) : Action σ KmsError Unit :=
  if s.closed then fail .closed
  else do
    let address ← ofExcept (Address.parse request.host)
    let connected ← inTime request.host "connect" s.connectLimit
      (await (.connect address.host address.port))
    orFail (.connect request.host) connected

/-- What happens on an open connection before it is shut down. -/
def exchange (s : StreamService) (request : KeyRequest) : Action σ KmsError Unit := do
  inTime request.host "write" s.ioLimit (writeAll request.host request.message)
  inTime request.host "write" s.ioLimit (flush request.host)
  s.receive request.host s.responseLimit

/-- The outcome is that of the exchange, also when the connection does not shut down cleanly. -/
def decryptKey (s : StreamService) (request : KeyRequest) : Action σ KmsError Unit := do
  s.connect request
  let outcome ← attempt (s.exchange request)
  let _ ← await .shutdown
  ofExcept outcome

end StreamService

end FieldSeal
