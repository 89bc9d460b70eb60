import FieldSeal.Client.Basic

/-!
When a configuration is valid. There is one way to cut a namespace; of the requirements that are not met the first is
reported, in whatever order the providers are visited; and nothing is made from a configuration that is refused.
-/

namespace FieldSeal

section Traversal

variable {α ε : Type} {check : α → Except ε Unit} {items : List α}

theorem forM_eq_ok_iff : forM items check = .ok () ↔ ∀ a ∈ items, check a = .ok () := by
  induction items with
  | nil => exact iff_of_true rfl (List.forall_mem_nil _)
  | cons a rest ih =>
    rw [List.forall_mem_cons, ← ih, List.forM_cons]
    cases check a <;> simp [bind, Except.bind]

/-- A traversal stops at the first item that is refused. -/
theorem forM_eq_error_iff {e : ε} : forM items check = .error e ↔
    ∃ earlier a later, items = earlier ++ a :: later ∧ (∀ b ∈ earlier, check b = .ok ()) ∧ check a = .error e := by
  induction items with
  | nil =>
    constructor
    · exact nofun
    · rintro ⟨earlier, a, later, hitems, -⟩
      simp at hitems
  | cons first rest ih =>
    rw [List.forM_cons]
    constructor
    · intro h
      cases hfirst : check first with
      | error e' =>
        rw [hfirst] at h
        exact ⟨[], first, rest, rfl, List.forall_mem_nil _, hfirst.trans h⟩
      | ok u =>
        rw [hfirst] at h
        obtain ⟨earlier, a, later, rfl, hearlier, ha⟩ := ih.1 h
        exact ⟨first :: earlier, a, later, rfl, List.forall_mem_cons.2 ⟨hfirst, hearlier⟩, ha⟩
    · rintro ⟨earlier, a, later, hitems, hearlier, ha⟩
      cases earlier with
      | nil =>
        obtain ⟨rfl, -⟩ := List.cons.inj hitems
        rw [ha]
        rfl
      | cons b earlier =>
        obtain ⟨rfl, rfl⟩ := List.cons.inj hitems
        obtain ⟨hfirst, hearlier⟩ := List.forall_mem_cons.1 hearlier
        rw [hfirst]
        exact ih.2 ⟨earlier, a, later, rfl, hearlier, ha⟩

end Traversal

namespace Config

variable {config : Config} {names : List String} {text database collection : String} {e : ClientError}

section KeyVault

/-- The text is a database without dots, a dot and a collection, and neither of the two is empty. -/
structure IsKeyVault (text database collection : String) : Prop where
  joined : text = database ++ "." ++ collection
  free : '.' ∉ database.toList
  database : database ≠ ""
  collection : collection ≠ ""

theorem isKeyVault_iff : IsKeyVault text database collection ↔
    Text.cut? '.' text = some (database, collection) ∧ database ≠ "" ∧ collection ≠ "" := by
  have hjoined : text = database ++ "." ++ collection ↔
      text.toList = database.toList ++ '.' :: collection.toList := by
    rw [← String.toList_inj, String.toList_append, String.toList_append, List.append_assoc]
    rfl
  rw [Text.cut?_eq_some_iff, ← hjoined]
  constructor
  · intro h
    exact ⟨⟨h.joined, h.free⟩, h.database, h.collection⟩
  · rintro ⟨⟨hjoined, hfree⟩, hdatabase, hcollection⟩
    exact ⟨hjoined, hfree, hdatabase, hcollection⟩

/-- A namespace can only be cut at its first dot. -/
theorem IsKeyVault.unique {database' collection' : String} (h : IsKeyVault text database collection)
    (h' : IsKeyVault text database' collection') : database = database' ∧ collection = collection' := by
  have hcut := (isKeyVault_iff.1 h).1.symm.trans (isKeyVault_iff.1 h').1
  simpa using hcut

theorem keyVault_eq_ok_iff : config.keyVault = .ok (database, collection) ↔
    IsKeyVault config.keyVaultNamespace database collection := by
  rw [isKeyVault_iff, keyVault]
  cases Text.cut? '.' config.keyVaultNamespace with
  | none => simp
  | some parts =>
    by_cases hempty : parts.1 = "" ∨ parts.2 = ""
    · simp [hempty]
      grind
    · simp [hempty]
      grind

theorem keyVault_eq_error_iff : config.keyVault = .error e ↔
    (∀ database collection, ¬ IsKeyVault config.keyVaultNamespace database collection) ∧
      e = keyVault.invalid config := by
  simp only [isKeyVault_iff, keyVault]
  cases Text.cut? '.' config.keyVaultNamespace with
  | none => simp [eq_comm]
  | some parts =>
    by_cases hempty : parts.1 = "" ∨ parts.2 = ""
    · simp [hempty]
      grind
    · simp [hempty]
      grind

end KeyVault

/-- What a configuration must meet. -/
inductive Requirement where
  | keyVault
  | providers
  | timeouts
  | responseLimit
  deriving DecidableEq, Repr

namespace Requirement

/-- In the order in which they are reported. -/
def all : List Requirement :=
  [.keyVault, .providers, .timeouts, .responseLimit]

def Met (config : Config) : Requirement → Prop
  | .keyVault => ∃ database collection, config.keyVault = .ok (database, collection)
  | .providers => "" ∉ config.providers.names
  | .timeouts => 0 < config.connectTimeout ∧ 0 < config.ioTimeout
  | .responseLimit => 0 < config.responseLimit

/-- How a configuration is refused that does not meet the requirement. -/
def refusal (config : Config) : Requirement → ClientError
  | .keyVault => .configuration s!"invalid key vault namespace {Text.quoted config.keyVaultNamespace}"
  | .providers => .configuration "KMS provider name must not be empty"
  | .timeouts => .configuration "KMS timeouts must be greater than zero"
  | .responseLimit => .configuration "kms_max_response_bytes must be greater than zero"

/-- The requirement is not met, and all before it are. -/
def IsFirstUnmet (config : Config) (requirement : Requirement) : Prop :=
  ∃ earlier later, all = earlier ++ requirement :: later ∧ (∀ r ∈ earlier, r.Met config) ∧ ¬ requirement.Met config

/-- The check of one requirement. -/
def check (config : Config) (names : List String) (requirement : Requirement) : Except ClientError Unit :=
  match requirement with
  | .keyVault => config.keyVault >>= fun _ => .ok ()
  | .providers => if names.any String.isEmpty then .error (refusal config .providers) else .ok ()
  | .timeouts =>
    if config.connectTimeout = 0 ∨ config.ioTimeout = 0 then .error (refusal config .timeouts) else .ok ()
  | .responseLimit => if config.responseLimit = 0 then .error (refusal config .responseLimit) else .ok ()

variable {requirement : Requirement}

/-- A check tells whether its requirement is met, and refuses the configuration if it is not. -/
theorem check_verdict (hnames : names.Perm config.providers.names) (requirement : Requirement) :
    requirement.Met config ∧ requirement.check config names = .ok () ∨
      ¬ requirement.Met config ∧ requirement.check config names = .error (requirement.refusal config) := by
  cases requirement with
  | keyVault =>
    rw [check]
    cases hvault : config.keyVault with
    | ok vault => exact .inl ⟨⟨vault.1, vault.2, hvault⟩, rfl⟩
    | error e =>
      refine .inr ⟨?_, congrArg Except.error (keyVault_eq_error_iff.1 hvault).2⟩
      rintro ⟨database, collection, hok⟩
      cases hok.symm.trans hvault
  | providers =>
    have hempty : names.any String.isEmpty = true ↔ "" ∈ config.providers.names := by
      simp [hnames.mem_iff]
    by_cases h : "" ∈ config.providers.names
    · exact .inr ⟨not_not_intro h, if_pos (hempty.2 h)⟩
    · exact .inl ⟨h, if_neg (mt hempty.1 h)⟩
  | timeouts =>
    simp only [Met, UInt64.pos_iff_ne_zero]
    by_cases h : config.connectTimeout = 0 ∨ config.ioTimeout = 0
    · exact .inr ⟨fun hmet => h.elim hmet.1 hmet.2, if_pos h⟩
    · exact .inl ⟨not_or.1 h, if_neg h⟩
  | responseLimit =>
    simp only [Met, UInt64.pos_iff_ne_zero]
    by_cases h : config.responseLimit = 0
    · exact .inr ⟨not_not_intro h, if_pos h⟩
    · exact .inl ⟨h, if_neg h⟩

theorem check_eq_ok_iff (hnames : names.Perm config.providers.names) :
    requirement.check config names = .ok () ↔ requirement.Met config := by
  rcases requirement.check_verdict hnames with ⟨hmet, hcheck⟩ | ⟨hmet, hcheck⟩ <;> simp [hmet, hcheck]

theorem check_eq_error_iff (hnames : names.Perm config.providers.names) :
    requirement.check config names = .error e ↔ ¬ requirement.Met config ∧ e = requirement.refusal config := by
  rcases requirement.check_verdict hnames with ⟨hmet, hcheck⟩ | ⟨hmet, hcheck⟩ <;> simp [hmet, hcheck, eq_comm]

end Requirement

theorem validateInOrder_eq (config : Config) (names : List String) :
    config.validateInOrder names = forM Requirement.all (Requirement.check config names) := by
  unfold validateInOrder
  simp only [Requirement.all, List.forM_cons, List.forM_nil, Requirement.check]
  cases config.keyVault with
  | error e => rfl
  | ok vault =>
    show (if names.any String.isEmpty then _ else _) = _
    split
    · rfl
    · split
      · rfl
      · split <;> rfl

theorem validateInOrder_eq_ok_iff (hnames : names.Perm config.providers.names) :
    config.validateInOrder names = .ok () ↔ ∀ requirement : Requirement, requirement.Met config := by
  rw [validateInOrder_eq, forM_eq_ok_iff]
  simp only [Requirement.check_eq_ok_iff hnames]
  exact ⟨fun h r => h r (by cases r <;> decide), fun h r _ => h r⟩

theorem validateInOrder_eq_error_iff (hnames : names.Perm config.providers.names) :
    config.validateInOrder names = .error e ↔
      ∃ requirement : Requirement, requirement.IsFirstUnmet config ∧ e = requirement.refusal config := by
  rw [validateInOrder_eq, forM_eq_error_iff]
  simp only [Requirement.check_eq_ok_iff hnames, Requirement.check_eq_error_iff hnames]
  constructor
  · rintro ⟨earlier, requirement, later, hall, hearlier, hunmet, he⟩
    exact ⟨requirement, ⟨earlier, later, hall, hearlier, hunmet⟩, he⟩
  · rintro ⟨requirement, ⟨earlier, later, hall, hearlier, hunmet⟩, he⟩
    exact ⟨earlier, requirement, later, hall, hearlier, hunmet, he⟩

theorem withConfig_eq_error_iff {c : Client} : c.withConfig config = .error e ↔ config.validate = .error e := by
  unfold Client.withConfig
  cases config.validate <;> simp [bind, Except.bind]

theorem ofConfig_eq_error_iff : StreamService.ofConfig config = .error e ↔ config.validate = .error e := by
  unfold StreamService.ofConfig
  cases config.validate <;> simp [bind, Except.bind]

theorem ofConfig_eq_ok_iff {s : StreamService} : StreamService.ofConfig config = .ok s ↔
    config.validate = .ok () ∧ s = .ofValidConfig config := by
  unfold StreamService.ofConfig
  cases config.validate <;> simp [bind, Except.bind, eq_comm]

/-- What a configuration is accepted for, what is reported of one that is not, and what is made of it. -/
structure ValidatesExactly (config : Config) : Prop where
  keyVault : ∀ database collection, config.keyVault = .ok (database, collection) ↔
    IsKeyVault config.keyVaultNamespace database collection
  uniqueKeyVault : ∀ database collection database' collection',
    IsKeyVault config.keyVaultNamespace database collection →
      IsKeyVault config.keyVaultNamespace database' collection' → database = database' ∧ collection = collection'
  visited : config.validate = config.validateInOrder config.providers.names
  accepted : ∀ names, names.Perm config.providers.names →
    (config.validateInOrder names = .ok () ↔
      (∃ database collection, config.keyVault = .ok (database, collection)) ∧ "" ∉ config.providers.names ∧
        0 < config.connectTimeout ∧ 0 < config.ioTimeout ∧ 0 < config.responseLimit)
  reported : ∀ names, names.Perm config.providers.names → ∀ e,
    (config.validateInOrder names = .error e ↔
      ∃ requirement : Requirement, requirement.IsFirstUnmet config ∧ e = requirement.refusal config)
  client : ∀ (c : Client) e, c.withConfig config = .error e ↔ config.validate = .error e
  service : ∀ e, StreamService.ofConfig config = .error e ↔ config.validate = .error e
  serviceLimits : ∀ s, StreamService.ofConfig config = .ok s →
    0 < s.connectLimit ∧ 0 < s.ioLimit ∧ 0 < s.responseLimit

theorem validates_exactly (config : Config) : ValidatesExactly config where
  keyVault _ _ := keyVault_eq_ok_iff
  uniqueKeyVault _ _ _ _ := IsKeyVault.unique
  visited := rfl
  accepted names hnames := by
    rw [validateInOrder_eq_ok_iff hnames]
    constructor
    · intro h
      have htimeouts := h .timeouts
      exact ⟨h .keyVault, h .providers, htimeouts.1, htimeouts.2, h .responseLimit⟩
    · rintro ⟨hvault, hproviders, hconnect, hio, hlimit⟩ requirement
      cases requirement with
      | keyVault => exact hvault
      | providers => exact hproviders
      | timeouts => exact ⟨hconnect, hio⟩
      | responseLimit => exact hlimit
  reported _ hnames _ := validateInOrder_eq_error_iff hnames
  client _ _ := withConfig_eq_error_iff
  service _ := ofConfig_eq_error_iff
  serviceLimits s h := by
    obtain ⟨hvalid, rfl⟩ := ofConfig_eq_ok_iff.1 h
    have hmet := (validateInOrder_eq_ok_iff (.refl _)).1 hvalid
    have htimeouts := hmet .timeouts
    exact ⟨UInt64.lt_iff_toNat_lt.1 htimeouts.1, UInt64.lt_iff_toNat_lt.1 htimeouts.2,
      UInt64.lt_iff_toNat_lt.1 (hmet .responseLimit)⟩

/-- Only the first dot counts. -/
example : keyVault { keyVaultNamespace := "vault.data.keys" } = .ok ("vault", "data.keys") := by
  rfl

end Config

end FieldSeal
