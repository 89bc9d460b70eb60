import FieldSeal.Interaction.Action
import FieldSeal.Failure.Client
import FieldSeal.Text.Quoted

/-!
Credentials for key management providers: documents fixed from the start, and suppliers that are asked when
a context needs credentials. A static document that is not empty always wins.
-/

namespace FieldSeal

/-- An order in which suppliers are visited. The map that holds them has none of its own, so that any order may come
of it. -/
structure Visiting where
  order : List (String × String) → List (String × String)
  perm : ∀ entries, (order entries).Perm entries

/-- By name. -/
def Visiting.alphabetical : Visiting where
  order := id
  perm entries := .refl entries

/-- Suppliers are known by a handle. -/
structure Credentials where
  providers : Registry Document := .empty
  suppliers : Registry String := .empty
  visiting : Visiting := .alphabetical

namespace Credentials

instance : Inhabited Credentials := ⟨{}⟩

def ofProviders (providers : Registry Document) : Credentials :=
  { providers }

/-- A later supplier of a provider replaces the earlier. -/
def withSupplier (c : Credentials) (provider supplier : String) : Credentials :=
  { c with suppliers := c.suppliers.insert provider supplier }

def hasSupplier (c : Credentials) (provider : String) : Bool :=
  c.suppliers.contains provider

/-- The static part of the credentials document. -/
def staticDocument (c : Credentials) : Document :=
  c.providers.entries.map fun entry => (entry.1, .object entry.2)

/-- Whether a credentials document has properties for a provider. -/
def hasProperties (doc : Document) (provider : String) : Bool :=
  match Fields.find? doc provider with
  | some (.object properties) => !properties.isEmpty
  | _ => false

variable {σ : Type}

/-- Asks the suppliers in the given order, each only if its provider has no properties so far. -/
def fetchFrom : List (String × String) → Document → Action σ ClientError Document
  | [], doc => pure doc
  | (provider, supplier) :: rest, doc =>
    if hasProperties doc provider then fetchFrom rest doc
    else do
      match ← Action.await (.supply supplier) with
      | .ok (some properties) => fetchFrom rest (Fields.insert provider (.object properties) doc)
      | .ok none => fetchFrom rest doc
      | .error cause => Action.fail (.credentials provider cause)

def fetchInOrder (c : Credentials) (order : List (String × String)) : Action σ ClientError Document :=
  fetchFrom order c.staticDocument

/-- The suppliers with their providers, as they are visited. -/
def visited (c : Credentials) : List (String × String) :=
  c.visiting.order c.suppliers.entries

theorem visited_perm (c : Credentials) : c.visited.Perm c.suppliers.entries :=
  c.visiting.perm c.suppliers.entries

def fetch (c : Credentials) : Action σ ClientError Document :=
  c.fetchInOrder c.visited

/-- Quoted texts in brackets, with commas between them. -/
def listed (names : List String) : String :=
  "[" ++ ", ".intercalate (names.map Text.quoted) ++ "]"

/-- The printed form shows names only, in increasing order, in whatever order they are visited. -/
def describeInOrder (providers suppliers : List String) : String :=
  "CredentialSource \x7b providers: " ++ listed providers.mergeSort
    ++ ", suppliers: " ++ listed suppliers.mergeSort ++ " \x7d"

def describe (c : Credentials) : String :=
  describeInOrder c.providers.names c.suppliers.names

end Credentials

end FieldSeal
