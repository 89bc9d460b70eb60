import FieldSeal.Client.Basic

/-!
Closing a client. Every resource is released, whatever became of those before it; the first failure is
returned, later ones are warned of.
-/

namespace FieldSeal.Client

inductive Resource where
  | engine
  | marker
  | internalClient
  | keyService
  deriving DecidableEq, Repr

namespace Resource

def name : Resource → String
  | .engine => "crypto engine"
  | .marker => "command marker"
  | .internalClient => "internal client"
  | .keyService => "key management service"

end Resource

variable {σ ε : Type}

open FieldSeal.Action

/-- What a client owns, in the order of release. -/
def resources (c : Client) : List Resource :=
  match c.auto with
  | none => [.engine, .keyService]
  | some ⟨false⟩ => [.engine, .marker, .keyService]
  | some ⟨true⟩ => [.engine, .marker, .internalClient, .keyService]

/-- A stream service is closed without a call. -/
def release (c : Client) : Resource → Action σ ε (Except Fault Unit)
  | .engine => do pure ((← ask .close).mapError EngineError.fault)
  | .marker => await .closeMarker
  | .internalClient => await .closeInternalClient
  | .keyService =>
    match c.keyService with
    | .custom => await .closeKms
    | .stream _ => pure (.ok ())

/-- The failures among the releases, in their order. -/
def releaseAll (c : Client) : List Resource → Action σ ε (List (Resource × Fault))
  | [] => pure []
  | resource :: rest => do
    let outcome ← c.release resource
    let failures ← c.releaseAll rest
    match outcome with
    | .ok () => pure failures
    | .error fault => pure ((resource, fault) :: failures)

def warnAll : List (Resource × Fault) → Action σ ε Unit
  | [] => pure ()
  | (resource, fault) :: rest => do
    warn s!"additional failure while releasing {resource.name}: {fault.message}"
    warnAll rest

/-- A client that is closed already has nothing to release. -/
def close (c : Client) : Action σ ClientError Unit := do
  if c.closed then pure ()
  else
    match ← c.releaseAll c.resources with
    | [] => pure ()
    | (resource, fault) :: rest =>
      warnAll rest
      fail (.release resource.name fault)

end FieldSeal.Client
