import FieldSeal.Client.Basic

/-!
Driving a context to its end. Each round asks the context for its phase and does what the phase needs; the
phases `ready` and `done` end the rounds, and so does a phase the library does not know.
-/

namespace FieldSeal.Client

variable {σ : Type}

open FieldSeal.Action

/-- The database for a phase that only auto-encryption clients can serve. -/
def autoDatabase (c : Client) (database : Option String) (missing : String) : Except ClientError String :=
  match c.auto, database with
  | none, _ => .error (.configuration s!"missing {missing}")
  | some _, none => .error (.configuration "missing database name")
  | some _, some database => .ok database

def provideCollectionInfo (c : Client) (database : Option String) : Action σ ClientError Unit := do
  let database ← ofExcept (c.autoDatabase database "collection info retriever")
  let filter ← ask .operation >>= orFail .engine
  match ← await (.collectionInfo database filter) >>= orFail .collectionInfo with
  | some info => ask (.addResult info) >>= orFail .engine
  | none => pure ()
  ask .completeOperation >>= orFail .engine

/-- A failure of the marker is wrapped. -/
def provideMarkings (c : Client) (database : Option String) : Action σ ClientError Unit := do
  let database ← ofExcept (c.autoDatabase database "command marker")
  let command ← ask .operation >>= orFail .engine
  let marked ← await (.mark database command) >>= orFail fun cause => (ClientError.marking cause).wrap
  ask (.addResult marked) >>= orFail .engine
  ask .completeOperation >>= orFail .engine

def provideCredentials (c : Client) : Action σ ClientError Unit := do
  let credentials ← c.credentials.fetch
  ask (.provideCredentials credentials) >>= orFail .engine

def addResults : List Document → Action σ ClientError Unit
  | [] => pure ()
  | result :: rest => do
    ask (.addResult result) >>= orFail .engine
    addResults rest

def provideKeys : Action σ ClientError Unit := do
  let filter ← ask .operation >>= orFail .engine
  let keys ← await (.findKeys filter) >>= orFail .keyVault
  addResults keys
  ask .completeOperation >>= orFail .engine

def decryptKey (c : Client) (request : KeyRequest) : Action σ KmsError Unit :=
  match c.keyService with
  | .custom => await (.decryptKey request) >>= ofExcept
  | .stream service => service.decryptKey request

/-- Serves the next decryptor; a value means that none is left. A failure of the round trip is wrapped. -/
def decryptNext (c : Client) : Action σ ClientError (Option Unit) := do
  match ← ask .nextDecryptor >>= orFail .engine with
  | some request =>
    mapError (fun e => (ClientError.kms e).wrap) (c.decryptKey request)
    pure none
  | none => pure (some ())

def decryptKeys (c : Client) : Action σ ClientError Unit := do
  loop c.decryptNext
  ask .completeDecryptors >>= orFail .engine

/-- One round; a value is the document the context ends with. -/
def round (c : Client) (database : Option String) : Action σ ClientError (Option Document) := do
  match ← ask .phase >>= orFail .engine with
  | .needsCollectionInfo => c.provideCollectionInfo database; pure none
  | .needsMarkings => c.provideMarkings database; pure none
  | .needsCredentials => c.provideCredentials; pure none
  | .needsKeys => provideKeys; pure none
  | .needsDecryption => c.decryptKeys; pure none
  | .ready => some <$> (ask .finish >>= orFail .engine)
  | .done => pure (some [])
  | .unrecognized code => fail (.unsupportedPhase (.unrecognized code))

def drive (c : Client) (database : Option String) : Action σ ClientError Document :=
  loop (c.round database)

def ensureOpen (c : Client) : Except ClientError Unit :=
  if c.closed then .error .closed else .ok ()

/-- Makes a context for the request, drives it, and releases it on every way out. -/
def execute (c : Client) (request : Request) (database : Option String) :
    Action σ ClientError Document := do
  ofExcept c.ensureOpen
  ask (.createContext request) >>= orFail .engine
  releasing (c.drive database)

end FieldSeal.Client
