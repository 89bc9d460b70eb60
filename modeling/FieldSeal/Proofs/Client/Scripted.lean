import FieldSeal.Client.Basic

/-!
A world that answers from a script, and a client in it.
-/

namespace FieldSeal

namespace Client

/-- What is still to be answered: the phases of a context, its decryptors, and the bytes that the one in hand
needs. -/
structure Script where
  phases : List Phase
  requests : List KeyRequest
  needed : Nat

/-- A world that answers from a script; its marker never answers. -/
def scripted : World Script where
  engine
    | .createContext _, s => (.ok (), s)
    | .phase, ⟨phase :: phases, requests, needed⟩ => (.ok phase, ⟨phases, requests, needed⟩)
    | .phase, s => (.ok .done, s)
    | .operation, s => (.ok [], s)
    | .addResult _, s => (.ok (), s)
    | .completeOperation, s => (.ok (), s)
    | .provideCredentials _, s => (.ok (), s)
    | .nextDecryptor, ⟨phases, request :: requests, needed⟩ =>
      (.ok (some request), ⟨phases, requests, needed⟩)
    | .nextDecryptor, s => (.ok none, s)
    | .bytesNeeded, s => (s.needed, s)
    | .feed bytes, s => (.ok (), { s with needed := s.needed - bytes.length })
    | .completeDecryptors, s => (.ok (), s)
    | .finish, s => (.ok [], s)
    | .release, s => ((), s)
    | .close, s => (.ok (), s)
  service
    | .collectionInfo _ _, _, s => ⟨s, some (1, .ok none, s)⟩
    | .mark _ _, _, s => ⟨s, none⟩
    | .findKeys _, _, s => ⟨s, some (1, .ok [[]], s)⟩
    | .supply _, _, s => ⟨s, some (1, .ok none, s)⟩
    | .decryptKey _, _, s => ⟨s, some (1, .ok (), s)⟩
    | .connect _ _, _, s => ⟨s, some (1, .ok (), s)⟩
    | .write bytes, _, s => ⟨s, some (1, .ok (Fin.last bytes.length), s)⟩
    | .flush, _, s => ⟨s, some (1, .ok (), s)⟩
    | .read want, _, s => ⟨s, some (1, .ok ⟨List.replicate want 0, by simp⟩, s)⟩
    | .shutdown, _, s => ⟨s, some (1, .ok (), s)⟩
    | .closeMarker, _, s => ⟨s, some (1, .ok (), s)⟩
    | .closeInternalClient, _, s => ⟨s, some (1, .ok (), s)⟩
    | .closeKms, _, s => ⟨s, some (1, .ok (), s)⟩

/-- A client in the scripted world, without credentials and with a custom key service. -/
def scriptedClient : Client :=
  .explicit .custom {}

def scriptedSetting : Setting Script :=
  ⟨scripted, 10, 3⟩

def scriptedRequest : KeyRequest :=
  ⟨"local", "localhost", []⟩

end Client

end FieldSeal
