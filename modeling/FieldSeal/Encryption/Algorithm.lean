import FieldSeal.Failure.Engine
import FieldSeal.Json.Basic

/-!
Encryption algorithms and query types, and their names.
-/

namespace FieldSeal

/-- The name that a decoded value gives: a text, or the only member of an object, which is null. -/
def Json.name? : Json → Option String
  | .string name => some name
  | .object [(name, .null)] => some name
  | _ => none

inductive Algorithm where
  | deterministic
  | random
  | indexed
  | unindexed
  | range
  deriving DecidableEq, Repr

namespace Algorithm

def all : List Algorithm :=
  [.deterministic, .random, .indexed, .unindexed, .range]

def name : Algorithm → String
  | .deterministic => "AEAD_AES_256_CBC_HMAC_SHA_512-Deterministic"
  | .random => "AEAD_AES_256_CBC_HMAC_SHA_512-Random"
  | .indexed => "Indexed"
  | .unindexed => "Unindexed"
  | .range => "Range"

/-- Whether encrypted values can be queried, so that a contention factor and a query type apply. -/
def isQueryable : Algorithm → Bool
  | .indexed | .range => true
  | .deterministic | .random | .unindexed => false

def ofName? (name : String) : Option Algorithm :=
  all.find? (·.name = name)

def parse (text : String) : Except EngineError Algorithm :=
  match ofName? text with
  | some algorithm => .ok algorithm
  | none => .error (.invalidArgument s!"unknown algorithm: {text}")

def ofJson? (value : Json) : Option Algorithm :=
  value.name?.bind ofName?

def toJson (algorithm : Algorithm) : Json :=
  .string algorithm.name

end Algorithm

inductive QueryType where
  | equality
  | range
  deriving DecidableEq, Repr

namespace QueryType

def all : List QueryType :=
  [.equality, .range]

def name : QueryType → String
  | .equality => "equality"
  | .range => "range"

def ofName? (name : String) : Option QueryType :=
  all.find? (·.name = name)

def ofJson? (value : Json) : Option QueryType :=
  value.name?.bind ofName?

def toJson (queryType : QueryType) : Json :=
  .string queryType.name

end QueryType

end FieldSeal
