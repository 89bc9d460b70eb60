import FieldSeal.Config.Basic
import FieldSeal.Json.Reader

/-!
Reading a configuration from an object, where missing members keep their defaults and unknown ones are
ignored, or from an array of the values of the leading fields.
-/

namespace FieldSeal.Config

def word? : Json → Option UInt64
  | .number (.integer n) => if 0 ≤ n ∧ n < 0x10000000000000000 then some (UInt64.ofNat n.toNat) else none
  | _ => none

def document? : Json → Option Document
  | .object members => some members
  | _ => none

def namedDocument? (m : String × Json) : Option (String × Document) :=
  (document? m.2).map (m.1, ·)

/-- Of the values of one provider the last stays, but all must be documents. -/
def providers? : Json → Option (Registry Document)
  | .object members => (members.mapM namedDocument?).map Registry.ofList
  | _ => none

/-- Puts a decoded value into a field, if it is of the field's type. -/
def set? (config : Config) (field : Field) (value : Json) : Option Config :=
  match field, value with
  | .providers, value => (providers? value).map ({ config with providers := · })
  | .bypass, .bool b => some { config with bypass := b }
  | .keyVaultNamespace, .string text => some { config with keyVaultNamespace := text }
  | .connectTimeout, value => (word? value).map ({ config with connectTimeout := · })
  | .ioTimeout, value => (word? value).map ({ config with ioTimeout := · })
  | .responseLimit, value => (word? value).map ({ config with responseLimit := · })
  | _, _ => none

def setAll? (config : Config) (values : List (Field × Json)) : Option Config :=
  values.foldlM (fun config v => config.set? v.1 v.2) config

/-- The members that name a field, in their order. -/
def known (members : List (String × Json)) : List (Field × Json) :=
  members.filterMap fun m => (Field.ofName? m.1).map (·, m.2)

/-- No field may be given twice. -/
def ofJson? : Json → Option Config
  | .object members =>
    if ((known members).map Prod.fst).Nodup then setAll? {} (known members) else none
  | .array values =>
    if values.length ≤ Field.all.length then setAll? {} (Field.all.zip values) else none
  | _ => none

/-- Repetitions below the members of an object are merged. -/
def mergeDocuments : Json → Json
  | .object members => .object (members.map fun (name, value) => (name, value.merged))
  | value => value

/-- Members that name no field need not have a value. -/
def knownWritten? : List (List Json.Piece × Json.Written) → Option (List (List Json.Piece × Json.Written))
  | [] => some []
  | (name, value) :: rest => do
    let text ← Json.Piece.text? name
    let known ← knownWritten? rest
    some (if (Field.ofName? text).isSome then (name, value) :: known else known)

/-- Reads a text in which the names of providers, but not those of fields, may be repeated. -/
def ofText? (text : String) : Option Config := do
  match ← Json.Written.ofText? text with
  | .object members =>
    match ← (Json.Written.object (← knownWritten? members)).resolve? with
    | .object members =>
      ofJson? (.object (members.map fun (name, value) => (name, mergeDocuments value)))
    | _ => none
  | .array elements =>
    match ← (Json.Written.array elements).resolve? with
    | .array values => ofJson? (.array (values.map mergeDocuments))
    | _ => none
  | _ => none

end FieldSeal.Config
