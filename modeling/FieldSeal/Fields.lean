/-!
Named values. `Fields` is a list of them, as a text gives it; a `Registry` holds each name once, in
increasing order, so that two registries with the same values under the same names are equal.
-/

namespace FieldSeal

abbrev Fields (α : Type) := List (String × α)

namespace Fields

variable {α β : Type}

def names (fields : Fields α) : List String :=
  fields.map Prod.fst

def find? (fields : Fields α) (name : String) : Option α :=
  fields.lookup name

/-- Puts a value under a name in front of the first greater name, in place of the value that the name
has. -/
def insert (name : String) (value : α) : Fields α → Fields α
  | [] => [(name, value)]
  | (n, v) :: rest =>
    if name < n then (name, value) :: (n, v) :: rest
    else if name = n then (name, value) :: rest
    else (n, v) :: insert name value rest

/-- Sorted by name; of the values under one name the last stays. -/
def ofList (fields : List (String × α)) : Fields α :=
  fields.foldl (fun acc (name, value) => insert name value acc) []

/-- Names strictly increase. -/
def Sorted (fields : Fields α) : Prop :=
  fields.Pairwise fun a b => a.1 < b.1

theorem mem_insert {name : String} {value : α} {fields : Fields α} {a : String × α}
    (h : a ∈ insert name value fields) : a = (name, value) ∨ a ∈ fields := by
  induction fields with
  | nil => simpa [insert] using h
  | cons f rest ih => grind [insert]

theorem Sorted.insert {name : String} {value : α} {fields : Fields α} (h : Sorted fields) :
    Sorted (insert name value fields) := by
  induction fields with
  | nil => simp [Fields.insert, Sorted]
  | cons f rest ih =>
    obtain ⟨n, v⟩ := f
    have hrest := ih (List.Pairwise.of_cons h)
    have hn : ∀ a ∈ rest, n < a.1 := fun a ha => List.rel_of_pairwise_cons h ha
    simp only [Fields.insert]
    split
    · next hlt =>
      refine h.cons fun a ha => ?_
      rcases List.mem_cons.1 ha with rfl | ha
      · exact hlt
      · exact String.lt_trans hlt (hn a ha)
    · split
      · next heq =>
        subst heq
        exact h.of_cons.cons fun a ha => hn a ha
      · next hlt hne =>
        refine hrest.cons fun a ha => ?_
        rcases mem_insert ha with rfl | ha
        · exact Std.lt_of_le_of_ne (String.not_lt.1 hlt) (fun e => hne e.symm)
        · exact hn a ha

theorem sorted_ofList (fields : List (String × α)) : Sorted (ofList fields) := by
  have go : ∀ (l : List (String × α)) (acc : Fields α), Sorted acc →
      Sorted (l.foldl (fun acc (name, value) => Fields.insert name value acc) acc) := by
    intro l
    induction l with
    | nil => exact fun acc h => h
    | cons f rest ih => exact fun acc h => ih _ h.insert
  exact go fields [] List.Pairwise.nil

end Fields

/-- Values under distinct names. -/
structure Registry (α : Type) where
  entries : Fields α
  sorted : entries.Sorted

namespace Registry

variable {α : Type}

def empty : Registry α :=
  ⟨[], List.Pairwise.nil⟩

instance : Inhabited (Registry α) := ⟨empty⟩

def ofList (fields : List (String × α)) : Registry α :=
  ⟨Fields.ofList fields, Fields.sorted_ofList fields⟩

/-- A value put under a name replaces the one that was there. -/
def insert (r : Registry α) (name : String) (value : α) : Registry α :=
  ⟨Fields.insert name value r.entries, r.sorted.insert⟩

def find? (r : Registry α) (name : String) : Option α :=
  Fields.find? r.entries name

def contains (r : Registry α) (name : String) : Bool :=
  (r.find? name).isSome

/-- The names in increasing order. -/
def names (r : Registry α) : List String :=
  Fields.names r.entries

theorem ext_entries {r s : Registry α} (h : r.entries = s.entries) : r = s := by
  cases r; cases s; cases h; rfl

end Registry

end FieldSeal
