import FieldSeal.Failure.Kms
import FieldSeal.Numeral
import FieldSeal.Text.Cut

/-!
Addresses of key management services: a host, a host and a port, or a host in brackets with or without
a port. A host that itself holds two or more colons stands alone.
-/

namespace FieldSeal

structure Address where
  host : String
  port : Nat
  deriving DecidableEq, Repr

namespace Address

def defaultPort : Nat := 443

def port? (text : List Char) : Option Nat :=
  (Numeral.read 10 65535 (String.ofList text)).toOption

/-- What may follow a bracketed host. -/
def portAfterBracket? : List Char → Option Nat
  | [] => some defaultPort
  | ':' :: port => port? port
  | _ => none

/-- The form without brackets; more than one colon makes the whole text the host. -/
def parsePlain? (text : List Char) : Option Address :=
  match Text.cutChars? ':' text with
  | none => some ⟨String.ofList text, defaultPort⟩
  | some (host, port) =>
    if ':' ∈ port then some ⟨String.ofList text, defaultPort⟩
    else if host = [] then none
    else (port? port).map (⟨String.ofList host, ·⟩)

def parseBracketed? (text : List Char) : Option Address := do
  let (host, after) ← Text.cutChars? ']' text
  guard (host ≠ [])
  let port ← portAfterBracket? after
  some ⟨String.ofList host, port⟩

def parse? (text : String) : Option Address :=
  match text.toList with
  | [] => none
  | '[' :: rest => parseBracketed? rest
  | chars => parsePlain? chars

def parse (text : String) : Except KmsError Address :=
  match parse? text with
  | some address => .ok address
  | none => .error (.invalidHost text)

end Address

end FieldSeal
