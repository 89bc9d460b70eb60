/-!
The phases of an encryption context. Each phase but the last two names what the context waits for.
-/

namespace FieldSeal

inductive Phase where
  | needsCollectionInfo
  | needsMarkings
  | needsCredentials
  | needsKeys
  | needsDecryption
  | ready
  | done
  | unrecognized (code : Int)
  deriving DecidableEq, Repr

namespace Phase

/-- Code zero is an engine's failure, which it reports as an error; here it is no phase of its own. -/
def ofCode (code : Int) : Phase :=
  match code with
  | 1 => .needsCollectionInfo
  | 2 => .needsMarkings
  | 3 => .needsKeys
  | 4 => .needsDecryption
  | 5 => .ready
  | 6 => .done
  | 7 => .needsCredentials
  | code => .unrecognized code

def code : Phase → Int
  | .needsCollectionInfo => 1
  | .needsMarkings => 2
  | .needsKeys => 3
  | .needsDecryption => 4
  | .ready => 5
  | .done => 6
  | .needsCredentials => 7
  | .unrecognized code => code

def name : Phase → String
  | .needsCollectionInfo => "NEED_MONGO_COLLINFO"
  | .needsMarkings => "NEED_MONGO_MARKINGS"
  | .needsCredentials => "NEED_KMS_CREDENTIALS"
  | .needsKeys => "NEED_MONGO_KEYS"
  | .needsDecryption => "NEED_KMS"
  | .ready => "READY"
  | .done => "DONE"
  | .unrecognized code => s!"UNRECOGNIZED({code})"

theorem code_ofCode (code : Int) : (ofCode code).code = code := by
  unfold ofCode
  split <;> rfl

end Phase

end FieldSeal
