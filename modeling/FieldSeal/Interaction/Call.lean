import FieldSeal.Context.Request
import FieldSeal.Failure.Kms

/-!
The calls a client makes on what it does not own: an encryption engine, which answers at once, and services,
whose answers take time. A call on a context means the context created last, a call on a
decryptor the decryptor handed out last, and a call on a connection the connection opened last: a client
uses one at a time.
-/

namespace FieldSeal

/-- What a decryptor asks for: `message` is to be sent to `host`. -/
structure KeyRequest where
  provider : String
  host : String
  message : Bytes
  deriving DecidableEq, Repr

inductive EngineCall where
  | createContext (request : Request)
  | phase
  | operation
  | addResult (result : Document)
  | completeOperation
  | provideCredentials (credentials : Document)
  | nextDecryptor
  | bytesNeeded
  | feed (bytes : Bytes)
  | completeDecryptors
  | finish
  | release
  | close

namespace EngineCall

@[reducible]
def Answer : EngineCall → Type
  | .createContext _ => Except EngineError Unit
  | .phase => Except EngineError Phase
  | .operation => Except EngineError Document
  | .addResult _ => Except EngineError Unit
  | .completeOperation => Except EngineError Unit
  | .provideCredentials _ => Except EngineError Unit
  | .nextDecryptor => Except EngineError (Option KeyRequest)
  | .bytesNeeded => Nat
  | .feed _ => Except EngineError Unit
  | .completeDecryptors => Except EngineError Unit
  | .finish => Except EngineError Document
  | .release => Unit
  | .close => Except EngineError Unit

end EngineCall

inductive ServiceCall where
  | collectionInfo (database : String) (filter : Document)
  | mark (database : String) (command : Document)
  | findKeys (filter : Document)
  | supply (supplier : String)
  | decryptKey (request : KeyRequest)
  | connect (host : String) (port : Nat)
  | write (bytes : Bytes)
  | flush
  | read (want : Nat)
  | shutdown
  | closeMarker
  | closeInternalClient
  | closeKms

namespace ServiceCall

/-- A write takes at most what it is offered, a read gives at most what it is asked for. -/
@[reducible]
def Answer : ServiceCall → Type
  | .collectionInfo _ _ => Except Fault (Option Document)
  | .mark _ _ => Except Fault Document
  | .findKeys _ => Except Fault (List Document)
  | .supply _ => Except Fault (Option Document)
  | .decryptKey _ => Except KmsError Unit
  | .connect _ _ => Except Fault Unit
  | .write bytes => Except Fault (Fin (bytes.length + 1))
  | .flush => Except Fault Unit
  | .read want => Except Fault { bytes : Bytes // bytes.length ≤ want }
  | .shutdown => Except Fault Unit
  | .closeMarker => Except Fault Unit
  | .closeInternalClient => Except Fault Unit
  | .closeKms => Except Fault Unit

end ServiceCall

/-- What a client does that can be seen from outside. A service call without an answer was cut off. -/
inductive Event where
  | engine (call : EngineCall) (answer : call.Answer)
  | service (call : ServiceCall) (answer : Option call.Answer)
  | warning (text : String)

end FieldSeal
