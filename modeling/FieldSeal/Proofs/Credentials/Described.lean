import FieldSeal.Proofs.Credentials.Assembling
import FieldSeal.Proofs.Text.Quoted
import FieldSeal.Proofs.Text.Utf8

/-!
The printed form of a source. It is a function of two sets of names: neither the documents and suppliers nor the order
in which they came in or are visited shows in it. The names do: they can be read off it again.
-/

namespace FieldSeal

namespace Registry

variable {α β : Type} {r : Registry α} {s : Registry β} {name : String} {value : α} {order : List String}

theorem pairwise_names (r : Registry α) : r.names.Pairwise (· < ·) :=
  List.pairwise_map.2 r.sorted

theorem mem_names_insert {other : String} : other ∈ (r.insert name value).names ↔ other = name ∨ other ∈ r.names :=
  Fields.mem_names_insert

theorem mem_names_ofList {entries : List (String × α)} :
    name ∈ (ofList entries).names ↔ name ∈ entries.map Prod.fst :=
  Fields.mem_names_ofList

/-- Of the orders in which names may be visited sorting leaves one. -/
theorem mergeSort_names (horder : order.Perm r.names) : order.mergeSort = r.names := by
  have hperm := (List.mergeSort_perm order (· ≤ ·)).trans horder
  have htrans (a b c : String) (hab : decide (a ≤ b)) (hbc : decide (b ≤ c)) : decide (a ≤ c) :=
    decide_eq_true (String.le_trans (of_decide_eq_true hab) (of_decide_eq_true hbc))
  have htotal (a b : String) : decide (a ≤ b) || decide (b ≤ a) := by
    simpa using String.le_total a b
  have hsorted : order.mergeSort.Pairwise (· ≤ ·) :=
    (List.pairwise_mergeSort htrans htotal order).imp of_decide_eq_true
  refine hperm.eq_of_pairwise (fun _ _ _ _ => String.le_antisymm) hsorted ?_
  exact r.pairwise_names.imp fun hlt => String.not_lt.1 (String.lt_asymm hlt)

/-- Registries with the same names have them in the same order. -/
theorem names_eq_of_mem_iff (h : ∀ name, name ∈ r.names ↔ name ∈ s.names) : r.names = s.names :=
  ((List.perm_ext_iff_of_nodup r.sorted.nodup s.sorted.nodup).2 fun name => h name).eq_of_pairwise
    (fun _ _ _ _ hab hba => absurd hab (String.lt_asymm hba)) r.pairwise_names s.pairwise_names

end Registry

/-- The list shows each name of a registry once, in increasing order of their bytes in UTF-8, and nothing else. -/
structure ShowsNames {α : Type} (r : Registry α) (shown : List String) : Prop where
  once : ∀ name, shown.count name = if name ∈ r.names then 1 else 0
  increasing : shown.Pairwise fun a b => a.toUTF8.data.toList < b.toUTF8.data.toList

theorem Registry.showsNames {α : Type} (r : Registry α) : ShowsNames r r.names where
  once _ := r.sorted.nodup.count
  increasing := r.pairwise_names.imp Text.toUTF8_lt

namespace Credentials

variable {c d : Credentials} {providers suppliers : List String}

theorem describeInOrder_names (hproviders : providers.Perm c.providers.names)
    (hsuppliers : suppliers.Perm c.suppliers.names) : describeInOrder providers suppliers =
      "CredentialSource \x7b providers: " ++ listed c.providers.names ++ ", suppliers: " ++
        listed c.suppliers.names ++ " \x7d" := by
  have hshown : providers.mergeSort = c.providers.names := Registry.mergeSort_names hproviders
  have hasked : suppliers.mergeSort = c.suppliers.names := Registry.mergeSort_names hsuppliers
  unfold describeInOrder
  rw [hshown, hasked]

/-- A source into which documents were put one after the other, and then suppliers. -/
def built (documents : List (String × Document)) (registrations : List (String × String)) : Credentials :=
  (ofProviders (.ofList documents)).withSuppliers registrations

theorem mem_supplier_names_withSuppliers {registrations : List (String × String)} {name : String} :
    name ∈ (c.withSuppliers registrations).suppliers.names ↔
      name ∈ registrations.map Prod.fst ∨ name ∈ c.suppliers.names := by
  induction registrations generalizing c with
  | nil => simp [withSuppliers]
  | cons r rest ih =>
    rw [List.map_cons, List.mem_cons]
    refine (ih (c := c.withSupplier r.1 r.2)).trans ?_
    rw [withSupplier, Registry.mem_names_insert, or_left_comm, or_assoc]

theorem mem_provider_names_built {documents : List (String × Document)} {registrations : List (String × String)}
    {name : String} : name ∈ (built documents registrations).providers.names ↔ name ∈ documents.map Prod.fst := by
  rw [built, providers_withSuppliers]
  exact Registry.mem_names_ofList

theorem mem_supplier_names_built {documents : List (String × Document)} {registrations : List (String × String)}
    {name : String} :
    name ∈ (built documents registrations).suppliers.names ↔ name ∈ registrations.map Prod.fst :=
  mem_supplier_names_withSuppliers.trans (or_iff_left List.not_mem_nil)

/-- Two sources have the same names of providers, and of suppliers. -/
structure NamedAlike (c d : Credentials) : Prop where
  providers : ∀ name, name ∈ c.providers.names ↔ name ∈ d.providers.names
  suppliers : ∀ name, name ∈ c.suppliers.names ↔ name ∈ d.suppliers.names

theorem namedAlike_built {documents documents' : List (String × Document)}
    {registrations registrations' : List (String × String)}
    (hdocuments : ∀ name, name ∈ documents.map Prod.fst ↔ name ∈ documents'.map Prod.fst)
    (hregistrations : ∀ name, name ∈ registrations.map Prod.fst ↔ name ∈ registrations'.map Prod.fst) :
    NamedAlike (built documents registrations) (built documents' registrations') where
  providers name := by rw [mem_provider_names_built, mem_provider_names_built, hdocuments]
  suppliers name := by rw [mem_supplier_names_built, mem_supplier_names_built, hregistrations]

/-- The text is the printed form of a source, with its names visited in some order. -/
def PrintsAs (c : Credentials) (text : String) : Prop :=
  ∃ providers suppliers, providers.Perm c.providers.names ∧ suppliers.Perm c.suppliers.names ∧
    text = describeInOrder providers suppliers

theorem prints_describe (c : Credentials) : c.PrintsAs c.describe :=
  ⟨_, _, .refl _, .refl _, rfl⟩

theorem PrintsAs.eq {text : String} (h : c.PrintsAs text) : text =
    "CredentialSource \x7b providers: " ++ listed c.providers.names ++ ", suppliers: " ++
      listed c.suppliers.names ++ " \x7d" := by
  obtain ⟨providers, suppliers, hproviders, hsuppliers, rfl⟩ := h
  exact describeInOrder_names hproviders hsuppliers

theorem NamedAlike.prints_eq {text text' : String} (h : NamedAlike c d) (hc : c.PrintsAs text) (hd : d.PrintsAs text') :
    text = text' := by
  rw [hc.eq, hd.eq, Registry.names_eq_of_mem_iff h.providers, Registry.names_eq_of_mem_iff h.suppliers]

/-- Text that stands behind the first of several names. -/
def further (name : String) : List Char :=
  ',' :: ' ' :: (Text.quoted name).toList

theorem toList_joined (name : String) (names : List String) :
    (", ".intercalate ((name :: names).map Text.quoted)).toList =
      (Text.quoted name).toList ++ names.flatMap further := by
  induction names generalizing name with
  | nil => simp
  | cons other names ih =>
    rw [List.map_cons, List.map_cons, String.intercalate_cons_cons, String.toList_append, String.toList_append,
      ← List.map_cons, ih other]
    simp [further]

theorem toList_listed_nil : (listed []).toList = ['[', ']'] :=
  rfl

theorem toList_listed_cons (name : String) (names : List String) : (listed (name :: names)).toList =
    '[' :: ((Text.quoted name).toList ++ (names.flatMap further ++ [']'])) := by
  rw [listed, String.toList_append, String.toList_append, toList_joined]
  simp

theorem further_prefixFree : Text.PrefixFree further := by
  intro name other rest rest' h
  simp only [further, List.cons_append, List.cons.injEq, true_and] at h
  exact Text.quoted_prefixFree _ _ _ _ h

/-- Behind the opening bracket stands a quote or the closing bracket. -/
theorem listed_nil_ne_cons {name : String} {names : List String} {rest rest' : List Char} :
    (listed []).toList ++ rest ≠ (listed (name :: names)).toList ++ rest' := by
  rw [toList_listed_nil, toList_listed_cons, Text.toList_quoted]
  nofun

/-- A list of names tells where it ends, and which names are in it. -/
theorem listed_prefixFree : Text.PrefixFree fun names => (listed names).toList := by
  have hcomma (name : String) (rest rest' : List Char) : further name ++ rest ≠ ']' :: rest' := nofun
  intro names others rest rest' h
  cases names with
  | nil =>
    cases others with
    | nil => exact ⟨rfl, List.append_cancel_left h⟩
    | cons other others => exact absurd h listed_nil_ne_cons
  | cons name names =>
    cases others with
    | nil => exact absurd h.symm listed_nil_ne_cons
    | cons other others =>
      simp only [toList_listed_cons, List.cons_append, List.cons.injEq, true_and, List.append_assoc,
        List.nil_append] at h
      obtain ⟨rfl, hnext⟩ := Text.quoted_prefixFree _ _ _ _ h
      rw [List.append_cons (names.flatMap further), List.append_cons (others.flatMap further)] at hnext
      obtain ⟨rfl, hrest⟩ := further_prefixFree.flatMap hcomma _ _ _ _ hnext
      exact ⟨rfl, hrest⟩

/-- Sources of one printed form have the same names. -/
theorem PrintsAs.namedAlike {text : String} (hc : c.PrintsAs text) (hd : d.PrintsAs text) : NamedAlike c d := by
  have htext := congrArg String.toList (hc.eq.symm.trans hd.eq)
  simp only [String.toList_append, List.append_assoc, List.append_cancel_left_eq] at htext
  obtain ⟨hproviders, hrest⟩ := listed_prefixFree _ _ _ _ htext
  obtain ⟨hsuppliers, -⟩ := listed_prefixFree _ _ _ _ (List.append_cancel_left hrest)
  exact ⟨fun name => by rw [hproviders], fun name => by rw [hsuppliers]⟩

/-- The lists written out. -/
theorem PrintsAs.eq_joined {text : String} (h : c.PrintsAs text) : text =
    "CredentialSource \x7b providers: [" ++ ", ".intercalate (c.providers.names.map Text.quoted) ++
      "], suppliers: [" ++ ", ".intercalate (c.suppliers.names.map Text.quoted) ++ "] \x7d" := by
  rw [h.eq, ← String.toList_inj]
  simp [listed, String.toList_append]

/-- The printed form of a source shows which names it has, and nothing else. -/
structure PrintsNames : Prop where
  printed : ∀ c : Credentials, c.PrintsAs c.describe
  alike : ∀ (c d : Credentials) (text text' : String),
    NamedAlike c d → c.PrintsAs text → d.PrintsAs text' → text = text'
  /-- Whatever is put in under the names, how often and in which order. -/
  built : ∀ (documents documents' : List (String × Document)) (registrations registrations' : List (String × String))
    (text text' : String),
    (∀ name, name ∈ documents.map Prod.fst ↔ name ∈ documents'.map Prod.fst) →
      (∀ name, name ∈ registrations.map Prod.fst ↔ name ∈ registrations'.map Prod.fst) →
        (built documents registrations).PrintsAs text → (built documents' registrations').PrintsAs text' → text = text'
  lists : ∀ (c : Credentials) (text : String), c.PrintsAs text → ∃ providers suppliers,
    text = "CredentialSource \x7b providers: [" ++ ", ".intercalate (providers.map Text.quoted) ++
        "], suppliers: [" ++ ", ".intercalate (suppliers.map Text.quoted) ++ "] \x7d" ∧
      ShowsNames c.providers providers ∧ ShowsNames c.suppliers suppliers
  /-- In quotes no two names look alike, and nothing in a name can pass for the end of a list. -/
  told : ∀ (c d : Credentials) (text : String), c.PrintsAs text → d.PrintsAs text → NamedAlike c d

theorem prints_names : PrintsNames where
  printed := prints_describe
  alike _ _ _ _ h hc hd := h.prints_eq hc hd
  built _ _ _ _ _ _ hdocuments hregistrations hc hd := (namedAlike_built hdocuments hregistrations).prints_eq hc hd
  lists c _ h := ⟨c.providers.names, c.suppliers.names, h.eq_joined, c.providers.showsNames, c.suppliers.showsNames⟩
  told _ _ _ := PrintsAs.namedAlike

end Credentials

end FieldSeal
