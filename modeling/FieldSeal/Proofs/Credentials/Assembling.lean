import FieldSeal.Credentials
import FieldSeal.Proofs.Fields.Lookup

/-!
The credentials document as a function of what is static and what is supplied. Each provider is settled by itself, so
that one supplier's document has no say in what becomes of another's.
-/

namespace FieldSeal

namespace Credentials

variable {providers : Registry Document} {registrations : List (String × String)} {provider supplier : String}

/-- Registers suppliers with their providers, one after the other. -/
def withSuppliers (c : Credentials) (registrations : List (String × String)) : Credentials :=
  registrations.foldl (fun c r => c.withSupplier r.1 r.2) c

/-- The supplier that was registered last for a provider. -/
def registered? (registrations : List (String × String)) (provider : String) : Option String :=
  Fields.find? registrations.reverse provider

/-- Whether a provider has no static document, or an empty one. -/
def lacks (providers : Registry Document) (provider : String) : Bool :=
  (providers.find? provider).all List.isEmpty

/-- What a provider is left with, of its static document and the one that was supplied. -/
def settled? (static supplied : Option Document) : Option Document :=
  match static with
  | some (property :: rest) => some (property :: rest)
  | static => supplied.or static

/-- The document in which each provider is settled, by what was supplied for it. -/
structure Assembled (providers : Registry Document) (supplied : String → Option Document) (doc : Document) :
    Prop where
  sorted : Fields.Sorted doc
  find? : ∀ provider, Fields.find? doc provider =
    (settled? (providers.find? provider) (supplied provider)).map Json.object

theorem Assembled.unique {supplied : String → Option Document} {doc other : Document}
    (h : Assembled providers supplied doc) (h' : Assembled providers supplied other) : doc = other :=
  h.sorted.ext h'.sorted fun provider => by rw [h.find?, h'.find?]

theorem find?_withSuppliers (c : Credentials) (registrations : List (String × String)) (provider : String) :
    (c.withSuppliers registrations).suppliers.find? provider =
      (registered? registrations provider).or (c.suppliers.find? provider) := by
  induction registrations generalizing c with
  | nil => rfl
  | cons r rest ih =>
    have hlast : (c.withSupplier r.1 r.2).suppliers.find? provider =
        (Fields.find? [r] provider).or (c.suppliers.find? provider) := by
      rw [Fields.find?_cons]
      refine (Fields.find?_insert r.1 r.2 c.suppliers.entries provider).trans ?_
      split <;> rfl
    rw [registered?, List.reverse_cons, Fields.find?_append, Option.or_assoc, ← hlast]
    exact ih (c.withSupplier r.1 r.2)

theorem providers_withSuppliers (c : Credentials) (registrations : List (String × String)) :
    (c.withSuppliers registrations).providers = c.providers := by
  induction registrations generalizing c with
  | nil => rfl
  | cons r rest ih => exact ih (c.withSupplier r.1 r.2)

/-- A provider without properties is one that lacks something in the static part. -/
theorem hasProperties_staticDocument (c : Credentials) (provider : String) :
    hasProperties c.staticDocument provider = !lacks c.providers provider := by
  rw [hasProperties, staticDocument, Fields.find?_map, lacks, Registry.find?]
  cases Fields.find? c.providers.entries provider <;> rfl

section Overlay

variable {supplied : String → Option Document} {asked : List (String × String)} {doc : Document}

/-- A document is put in for a provider if one was supplied. -/
def put (provider : String) (supplied : Option Document) (doc : Document) : Document :=
  match supplied with
  | some properties => Fields.insert provider (.object properties) doc
  | none => doc

theorem find?_put (provider : String) (supplied : Option Document) (doc : Document) (other : String) :
    Fields.find? (put provider supplied doc) other =
      if other = provider then (supplied.map Json.object).or (Fields.find? doc other)
      else Fields.find? doc other := by
  cases supplied with
  | none => exact (ite_self _).symm
  | some properties => exact Fields.find?_insert provider (.object properties) doc other

/-- What is put in for one provider does not show in the properties of another. -/
theorem hasProperties_put {other : String} (h : other ≠ provider) (supplied : Option Document) (doc : Document) :
    hasProperties (put provider supplied doc) other = hasProperties doc other := by
  rw [hasProperties, hasProperties, find?_put, if_neg h]

/-- Puts in what was supplied for each of the providers that were asked for. -/
def overlay (supplied : String → Option Document) (asked : List (String × String)) (doc : Document) : Document :=
  asked.foldl (fun doc entry => put entry.1 (supplied entry.1) doc) doc

theorem overlay_cons (supplied : String → Option Document) (entry : String × String) (rest : List (String × String))
    (doc : Document) :
    overlay supplied (entry :: rest) doc = overlay supplied rest (put entry.1 (supplied entry.1) doc) :=
  rfl

theorem overlay_congr {supplied' : String → Option Document}
    (h : ∀ entry ∈ asked, supplied entry.1 = supplied' entry.1) (doc : Document) :
    overlay supplied asked doc = overlay supplied' asked doc := by
  induction asked generalizing doc with
  | nil => rfl
  | cons entry rest ih =>
    obtain ⟨hentry, hrest⟩ := List.forall_mem_cons.1 h
    rw [overlay_cons, overlay_cons, hentry, ih hrest]

theorem sorted_overlay (h : Fields.Sorted doc) : Fields.Sorted (overlay supplied asked doc) := by
  induction asked generalizing doc with
  | nil => exact h
  | cons entry rest ih =>
    rw [overlay_cons]
    cases supplied entry.1 with
    | none => exact ih h
    | some properties => exact ih h.insert

theorem find?_overlay (supplied : String → Option Document) (asked : List (String × String)) (doc : Document)
    (provider : String) :
    Fields.find? (overlay supplied asked doc) provider =
      if provider ∈ asked.map Prod.fst then
        ((supplied provider).map Json.object).or (Fields.find? doc provider)
      else Fields.find? doc provider := by
  induction asked generalizing doc with
  | nil => rfl
  | cons entry rest ih =>
    rw [overlay_cons, ih, find?_put]
    simp only [List.map_cons, List.mem_cons]
    by_cases hprovider : provider = entry.1
    · subst hprovider
      cases supplied entry.1 <;> simp
    · simp only [hprovider, false_or, if_false]

end Overlay

/-- The suppliers that are asked if none fails, with their providers. -/
def eligible (c : Credentials) (order : List (String × String)) : List (String × String) :=
  order.filter fun entry => lacks c.providers entry.1

theorem sorted_staticDocument (c : Credentials) : Fields.Sorted c.staticDocument :=
  c.providers.sorted.map

theorem mem_eligible_iff (c : Credentials) {order : List (String × String)}
    (horder : order.Perm c.suppliers.entries) {entry : String × String} :
    entry ∈ c.eligible order ↔
      c.suppliers.find? entry.1 = some entry.2 ∧ lacks c.providers entry.1 = true := by
  rw [eligible, List.mem_filter, horder.mem_iff, Registry.find?, Fields.find?_eq_some_iff c.suppliers.sorted.nodup]

theorem nodup_order (c : Credentials) {order : List (String × String)} (horder : order.Perm c.suppliers.entries) :
    (order.map Prod.fst).Nodup :=
  (horder.map Prod.fst).nodup_iff.2 c.suppliers.sorted.nodup

theorem mem_eligible_names_iff (c : Credentials) {order : List (String × String)}
    (horder : order.Perm c.suppliers.entries) {provider : String} :
    provider ∈ (c.eligible order).map Prod.fst ↔
      (c.suppliers.find? provider).isSome = true ∧ lacks c.providers provider = true := by
  rw [List.mem_map, Option.isSome_iff_exists]
  constructor
  · rintro ⟨entry, hentry, rfl⟩
    obtain ⟨hsupplier, hlacks⟩ := (c.mem_eligible_iff horder).1 hentry
    exact ⟨⟨entry.2, hsupplier⟩, hlacks⟩
  · rintro ⟨⟨supplier, hsupplier⟩, hlacks⟩
    exact ⟨(provider, supplier), (c.mem_eligible_iff horder).2 ⟨hsupplier, hlacks⟩, rfl⟩

/-- Whatever the order, the suppliers of eligible providers settle all providers. -/
theorem assembled_overlay (c : Credentials) {order : List (String × String)}
    (horder : order.Perm c.suppliers.entries) (supplied : String → Option Document) :
    Assembled c.providers (fun provider => (c.suppliers.find? provider).bind fun _ => supplied provider)
      (overlay supplied (c.eligible order) c.staticDocument) := by
  refine ⟨sorted_overlay c.sorted_staticDocument, fun provider => ?_⟩
  have hstatic : Fields.find? c.staticDocument provider = (c.providers.find? provider).map Json.object :=
    Fields.find?_map Json.object c.providers.entries provider
  rw [find?_overlay, hstatic]
  simp only [c.mem_eligible_names_iff horder]
  cases hlacks : lacks c.providers provider with
  | false =>
    -- a static document that is not empty stays
    rw [if_neg (by simp)]
    rw [lacks] at hlacks
    cases hproperties : c.providers.find? provider with
    | none => simp [hproperties] at hlacks
    | some properties =>
      cases properties with
      | nil => simp [hproperties] at hlacks
      | cons property rest => rfl
  | true =>
    have hsettled : ∀ supplied, settled? (c.providers.find? provider) supplied =
        supplied.or (c.providers.find? provider) := by
      intro supplied
      cases hproperties : c.providers.find? provider with
      | none => rfl
      | some properties =>
        cases properties with
        | nil => rfl
        | cons property rest => simp [lacks, hproperties] at hlacks
    rw [hsettled, Option.map_or]
    cases c.suppliers.find? provider with
    | none => rfl
    | some supplier => rfl

end Credentials

end FieldSeal
