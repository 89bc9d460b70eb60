import FieldSeal.Json.Reader

/-!
Records read straight from a text, without the value of the whole text in between. A record has a fixed list of
fields. An object gives each of them once under its name, in any order, and has no other member; an array gives
them in their order.
-/

namespace FieldSeal.Json.Reader

/-- Reads the front of a text, and gives what follows it. -/
abbrev Part (α : Type) := List Char → Option (α × List Char)

/-- The text of a string. -/
def text? : Part String := fun cs =>
  match skipBlank cs with
  | '"' :: rest => do
    let (pieces, rest) ← string? rest
    let text ← Piece.text? pieces
    some (text, rest)
  | _ => none

/-- The name of a member as a text. -/
def memberText? : Part String := fun cs => do
  let (pieces, rest) ← memberName? cs
  let name ← Piece.text? pieces
  some (name, rest)

variable {α : Type}

/-- The members of a record up to the closing brace. The names in `missing` are still to come; any other name,
also one that was there before, is refused. -/
def recordMembers? (part : Part α) (missing : List String) : Part (Fields α) := fun cs => do
  let (name, rest) ← memberText? cs
  if name ∈ missing then
    let (value, rest) ← part rest
    match skipBlank rest with
    | ',' :: rest =>
      let (members, rest) ← recordMembers? part (missing.erase name) rest
      some ((name, value) :: members, rest)
    | '}' :: rest => if missing.erase name = [] then some ([(name, value)], rest) else none
    | _ => none
  else none
termination_by missing.length
decreasing_by
  have := List.length_erase_of_mem ‹name ∈ missing›
  have := List.length_pos_of_mem ‹name ∈ missing›
  omega

/-- The elements of a record up to the closing bracket, one for each of the fields. -/
def recordElements? (part : Part α) : List String → Part (Fields α)
  | [], _ => none
  | name :: names, cs => do
    let (value, rest) ← part cs
    match skipBlank rest with
    | ',' :: rest =>
      let (elements, rest) ← recordElements? part names rest
      some ((name, value) :: elements, rest)
    | ']' :: rest => if names = [] then some ([(name, value)], rest) else none
    | _ => none

/-- A record with these fields, at least one. Each of its values is read as a part. -/
def record? (part : Part α) (fields : List String) : Part (Fields α) := fun cs =>
  match skipBlank cs with
  | '{' :: rest => recordMembers? part fields rest
  | '[' :: rest => recordElements? part fields rest
  | _ => none

end FieldSeal.Json.Reader
