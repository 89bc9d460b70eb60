import FieldSeal.Config.Reader
import FieldSeal.Proofs.Fields.Lookup

/-!
Stored fields of a configuration. A configuration is known by the values of its fields; those that are stored are put
back one by one, in any order, and the others keep their defaults.
-/

namespace FieldSeal

namespace Config

open FieldSeal.Config.Field

namespace Field

theorem mem_all (field : Field) : field ∈ all := by
  cases field <;> decide

theorem nodup_all : all.Nodup := by
  decide

theorem ofName?_name (field : Field) : ofName? field.name = some field := by
  cases field <;> decide

theorem ofName?_eq_some_iff {name : String} {field : Field} : ofName? name = some field ↔ name = field.name := by
  constructor
  · intro h
    have hname := List.find?_some h
    exact (of_decide_eq_true hname).symm
  · rintro rfl
    exact ofName?_name field

end Field

/-- The configuration with the fields that are kept, and defaults in place of all others. -/
def keeping (c : Config) (kept : Field → Bool) : Config where
  providers := (if kept .providers then c else {}).providers
  bypass := (if kept .bypass then c else {}).bypass
  keyVaultNamespace := (if kept .keyVaultNamespace then c else {}).keyVaultNamespace
  connectTimeout := (if kept .connectTimeout then c else {}).connectTimeout
  ioTimeout := (if kept .ioTimeout then c else {}).ioTimeout
  responseLimit := (if kept .responseLimit then c else {}).responseLimit

/-- The members under which the fields that are kept are stored. -/
def stored (c : Config) (kept : Field → Bool) : List (String × Json) :=
  (all.filter kept).map fun field => (field.name, c.get field)

theorem get_keeping (c : Config) (kept : Field → Bool) (field : Field) :
    (c.keeping kept).get field = if kept field then c.get field else ({} : Config).get field := by
  cases field <;> simp only [keeping, get] <;> split <;> rfl

/-- Nothing of a configuration is lost in the values of its fields. -/
theorem ext_get {c d : Config} (h : ∀ field, c.get field = d.get field) : c = d := by
  have hword : ∀ {w w' : UInt64}, Json.number (.integer w.toNat) = .number (.integer w'.toNat) → w = w' :=
    fun heq => UInt64.toNat_inj.1 (Int.ofNat.inj (Number.integer.inj (Json.number.inj heq)))
  have hproviders : c.providers = d.providers := by
    refine Registry.ext_entries ((List.map_inj_right ?_).1 (Json.object.inj (h .providers)))
    rintro ⟨name, doc⟩ ⟨name', doc'⟩ heq
    obtain ⟨hname, hdoc⟩ := Prod.mk.inj heq
    rw [hname, Json.object.inj hdoc]
  have hbypass : c.bypass = d.bypass := Json.bool.inj (h .bypass)
  have hnamespace : c.keyVaultNamespace = d.keyVaultNamespace := Json.string.inj (h .keyVaultNamespace)
  have hconnect : c.connectTimeout = d.connectTimeout := hword (h .connectTimeout)
  have hio : c.ioTimeout = d.ioTimeout := hword (h .ioTimeout)
  have hlimit : c.responseLimit = d.responseLimit := hword (h .responseLimit)
  cases c
  cases d
  simp_all only

/-- The configuration with one field of another. -/
def withField (c d : Config) : Field → Config
  | .providers => { c with providers := d.providers }
  | .bypass => { c with bypass := d.bypass }
  | .keyVaultNamespace => { c with keyVaultNamespace := d.keyVaultNamespace }
  | .connectTimeout => { c with connectTimeout := d.connectTimeout }
  | .ioTimeout => { c with ioTimeout := d.ioTimeout }
  | .responseLimit => { c with responseLimit := d.responseLimit }

theorem get_withField (c d : Config) (field other : Field) :
    (c.withField d field).get other = if other = field then d.get other else c.get other := by
  cases field <;> cases other <;> rfl

theorem word?_toNat (word : UInt64) : word? (.number (.integer word.toNat)) = some word := by
  have hlt := word.toNat_lt
  rw [word?, if_pos (by omega), Int.toNat_natCast, UInt64.ofNat_toNat]

theorem mapM_namedDocument? (entries : Fields Document) :
    (entries.map fun entry => (entry.1, Json.object entry.2)).mapM namedDocument? = some entries := by
  induction entries with
  | nil => rfl
  | cons entry rest ih =>
    rw [List.map_cons, List.mapM_cons, ih]
    rfl

theorem providers?_entries (providers : Registry Document) :
    providers? (.object (providers.entries.map fun (name, doc) => (name, .object doc))) = some providers := by
  rw [providers?, mapM_namedDocument?, Option.map_some, Registry.ofList_entries]

theorem set?_get (c d : Config) (field : Field) : c.set? field (d.get field) = some (c.withField d field) := by
  cases field with
  | providers => simp [set?, get, providers?_entries, withField]
  | bypass => rfl
  | keyVaultNamespace => rfl
  | connectTimeout => simp [set?, get, word?_toNat, withField]
  | ioTimeout => simp [set?, get, word?_toNat, withField]
  | responseLimit => simp [set?, get, word?_toNat, withField]

/-- Values of another configuration are put into their fields one by one. -/
theorem setAll?_get (c d : Config) (fields : List Field) :
    c.setAll? (fields.map fun field => (field, d.get field)) = some (fields.foldl (withField · d ·) c) := by
  induction fields generalizing c with
  | nil => rfl
  | cons field rest ih =>
    rw [setAll?, List.map_cons, List.foldlM_cons, set?_get]
    exact ih (c.withField d field)

theorem get_foldl_withField (c d : Config) (fields : List Field) (field : Field) :
    (fields.foldl (withField · d ·) c).get field = if field ∈ fields then d.get field else c.get field := by
  induction fields generalizing c with
  | nil => rfl
  | cons first rest ih =>
    rw [List.foldl_cons, ih, get_withField]
    grind

/-- The order of the values does not matter. -/
theorem setAll?_kept (c : Config) {kept : Field → Bool} {fields : List Field}
    (hfields : ∀ field, field ∈ fields ↔ kept field = true) :
    ({} : Config).setAll? (fields.map fun field => (field, c.get field)) = some (c.keeping kept) := by
  rw [setAll?_get]
  refine congrArg some (ext_get fun field => ?_)
  rw [get_foldl_withField, get_keeping]
  simp only [hfields]

theorem known_stored (c : Config) (fields : List Field) :
    known (fields.map fun field => (field.name, c.get field)) = fields.map fun field => (field, c.get field) := by
  induction fields with
  | nil => rfl
  | cons field rest ih =>
    rw [known] at ih ⊢
    rw [List.map_cons, List.filterMap_cons, ih, ofName?_name]
    rfl

theorem known_unknown {members : List (String × Json)} (h : ∀ m ∈ members, ∀ field : Field, m.1 ≠ field.name) :
    known members = [] := by
  refine List.filterMap_eq_nil_iff.2 fun m hm => Option.map_eq_none_iff.2 ?_
  exact Option.eq_none_iff_forall_not_mem.2 fun field hfield => h m hm field (ofName?_eq_some_iff.1 hfield)

/-- In an object, the stored fields may stand in any order and among unknown members. -/
theorem ofJson?_object (c : Config) (kept : Field → Bool) {members unknown : List (String × Json)}
    (hunknown : ∀ m ∈ unknown, ∀ field : Field, m.1 ≠ field.name)
    (hmembers : members.Perm (c.stored kept ++ unknown)) :
    ofJson? (.object members) = some (c.keeping kept) := by
  have hknown : (known members).Perm ((all.filter kept).map fun field => (field, c.get field)) := by
    have hperm : (known members).Perm (known (c.stored kept) ++ known unknown) := by
      rw [known, known, known, ← List.filterMap_append]
      exact hmembers.filterMap _
    rwa [stored, known_stored, known_unknown hunknown, List.append_nil] at hperm
  have hfields : ((known members).map Prod.fst).Perm (all.filter kept) := by
    simpa [Function.comp_def] using hknown.map Prod.fst
  have hvalues : ((known members).map Prod.fst).map (fun field => (field, c.get field)) = known members := by
    rw [List.map_map]
    refine (List.map_congr_left fun v hv => ?_).trans (List.map_id _)
    obtain ⟨field, -, rfl⟩ := List.mem_map.1 (hknown.mem_iff.1 hv)
    rfl
  rw [ofJson?, if_pos (hfields.nodup_iff.2 (nodup_all.filter kept)), ← hvalues]
  refine setAll?_kept c fun field => ?_
  rw [hfields.mem_iff, List.mem_filter]
  exact and_iff_right (mem_all field)

theorem zip_take_map {α β : Type} (f : α → β) (l : List α) (k : Nat) :
    l.zip ((l.map f).take k) = (l.take k).map fun a => (a, f a) := by
  induction l generalizing k with
  | nil => simp
  | cons a rest ih =>
    cases k with
    | zero => rfl
    | succ k => simp [ih]

/-- In an array, the values of the leading fields may stand alone. -/
theorem ofJson?_array (c : Config) (k : Nat) :
    ofJson? (.array ((all.map c.get).take k)) = some (c.keeping fun field => decide (field ∈ all.take k)) := by
  have hlength : ((all.map c.get).take k).length ≤ all.length := by
    rw [List.length_take, List.length_map]
    exact Nat.min_le_right k all.length
  rw [ofJson?, if_pos hlength, zip_take_map]
  exact setAll?_kept c fun field => decide_eq_true_iff.symm

theorem nodup_names (c : Config) : (Fields.names (all.map fun field => (field.name, c.get field))).Nodup := by
  rw [Fields.names, List.map_map]
  show (all.map name).Nodup
  decide

theorem ofJson?_toJson (c : Config) : ofJson? c.toJson = some c := by
  have hperm : (Fields.ofList (all.map fun field => (field.name, c.get field))).Perm (c.stored fun _ => true) := by
    rw [stored, List.filter_eq_self.2 fun _ _ => rfl]
    exact Fields.perm_ofList c.nodup_names
  refine ofJson?_object c (fun _ => true) (List.forall_mem_nil _) ?_
  rwa [List.append_nil]

end Config

end FieldSeal
