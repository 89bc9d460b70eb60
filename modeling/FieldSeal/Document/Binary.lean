import FieldSeal.Base64
import FieldSeal.Json.Record
import FieldSeal.Numeral
import FieldSeal.Text.Quoted
import FieldSeal.Uuid

/-!
Binary values of documents and their JSON form, an object whose member `$binary` holds the payload in
base64 and the subtype as two hexadecimal digits. Reading is looser: arrays may stand for the two objects,
and a subtype is any hexadecimal numeral up to 255.
-/

namespace FieldSeal

structure Binary where
  subtype : UInt8
  bytes : Bytes
  deriving DecidableEq, Repr

namespace Binary

def uuidSubtype : UInt8 := 4

def encryptedSubtype : UInt8 := 6

def encrypted (bytes : Bytes) : Binary :=
  ⟨encryptedSubtype, bytes⟩

def isEncrypted (b : Binary) : Bool :=
  b.subtype = encryptedSubtype

def ofUuid (id : Uuid) : Binary :=
  ⟨uuidSubtype, id.bytes⟩

def uuid? (b : Binary) : Option Uuid :=
  if b.subtype = uuidSubtype then Uuid.ofBytes? b.bytes else none

def toJson (b : Binary) : Json :=
  .object [("$binary", .object [
    ("base64", .string (Base64.encode b.bytes)),
    ("subType", .string (Bytes.hex [b.subtype]))])]

/-- What a binary is turned into where a value is wanted. -/
def intoJson (b : Binary) : Json :=
  b.toJson

/-- The payload text and the subtype text. -/
def texts (b : Binary) : String × String :=
  (Base64.encode b.bytes, Bytes.hex [b.subtype])

/-- Writes a binary field by field, as a record of its two texts within a record. -/
def serialize (b : Binary) : Json :=
  let (payload, subtype) := b.texts
  .record [("$binary", .record [("base64", .string payload), ("subType", .string subtype)])]

/-- Why a value is no binary: it has another shape, or one of its two texts is malformed. -/
inductive ReadError where
  | shape
  | subtype (text : String) (why : Numeral.Defect)
  | payload (why : Base64.Defect)
  deriving DecidableEq, Repr

/-- A value of another shape has no message of its own. -/
def ReadError.message? : ReadError → Option String
  | .shape => none
  | .subtype text why => some s!"invalid binary subtype {Text.quoted text}: {why.message}"
  | .payload why => some s!"invalid base64 payload: {why.message}"

/-- The payload text and the subtype text of the inner part. -/
def bodyTexts? : Json → Option (String × String)
  | .object [("base64", .string payload), ("subType", .string subtype)] => some (payload, subtype)
  | .object [("subType", .string subtype), ("base64", .string payload)] => some (payload, subtype)
  | .array [.string payload, .string subtype] => some (payload, subtype)
  | _ => none

def texts? : Json → Option (String × String)
  | .object [("$binary", body)] => bodyTexts? body
  | .array [body] => bodyTexts? body
  | _ => none

/-- The subtype is read before the payload. -/
def ofTexts (payload subtype : String) : Except ReadError Binary :=
  match Numeral.read 16 255 subtype with
  | .error why => .error (.subtype subtype why)
  | .ok n =>
    match Base64.decode payload with
    | .error why => .error (.payload why)
    | .ok bytes => .ok ⟨UInt8.ofNat n, bytes⟩

def ofJson (value : Json) : Except ReadError Binary :=
  match texts? value with
  | some (payload, subtype) => ofTexts payload subtype
  | none => .error .shape

def ofJson? (value : Json) : Option Binary :=
  (ofJson value).toOption

/-- A record with the two texts, within a record of that alone. -/
def record? : Json.Reader.Part (Fields (Fields String)) :=
  Json.Reader.record? (Json.Reader.record? Json.Reader.text? ["base64", "subType"]) ["$binary"]

/-- The binary of a record that was read. -/
def ofRecord? (record : Fields (Fields String)) : Option Binary := do
  let body ← record.find? "$binary"
  let payload ← body.find? "base64"
  let subtype ← body.find? "subType"
  (ofTexts payload subtype).toOption

/-- Reads a binary straight from a text, as a record. -/
def ofText? (text : String) : Option Binary := do
  let (record, rest) ← record? text.toList
  if Json.Reader.skipBlank rest = [] then ofRecord? record else none

end Binary

end FieldSeal
