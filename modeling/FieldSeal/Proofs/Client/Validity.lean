import FieldSeal.Client.Operation

/-!
When the arguments of an operation are valid. Validity is a condition on the arguments alone; `complaint?` says
beside it which condition is reported when several are broken, and the checks of the library report that one.
-/

namespace FieldSeal

/-- Complaints with the conditions under which they are raised, the gravest first. -/
abbrev Complaints := List (Bool × String)

namespace Complaints

/-- The text of the first complaint whose condition holds. -/
def first? (complaints : Complaints) : Option String :=
  (complaints.find? Prod.fst).map Prod.snd

def verdict (complaints : Complaints) : Except EngineError Unit :=
  match complaints.first? with
  | some text => .error (.invalidArgument text)
  | none => .ok ()

theorem first?_eq_none_iff {complaints : Complaints} :
    complaints.first? = none ↔ ∀ complaint ∈ complaints, complaint.1 = false := by
  simp [first?]

theorem first?_append (complaints others : Complaints) :
    first? (complaints ++ others) = complaints.first?.or others.first? := by
  unfold first?
  rw [List.find?_append, Option.map_or]

theorem verdict_append (complaints others : Complaints) :
    verdict (complaints ++ others) = complaints.verdict >>= fun _ => others.verdict := by
  unfold verdict
  rw [first?_append]
  cases complaints.first? <;> rfl

end Complaints

namespace EncryptOptions

variable {options : EncryptOptions}

/-- Exactly one of id and alternate name tells the data key, a name is not empty, a contention factor is not
negative, and what is about queries comes only with algorithms that can be queried. -/
structure Valid (options : EncryptOptions) : Prop where
  oneKey : options.keyId.isSome ↔ options.keyAltName = none
  named : options.keyAltName ≠ some ""
  contention : ∀ factor, options.contentionFactor = some factor → 0 ≤ factor
  queryable : options.contentionFactor.isSome ∨ options.queryType.isSome →
    options.algorithm = .indexed ∨ options.algorithm = .range

def keyComplaints (options : EncryptOptions) : Complaints :=
  [(options.keyId.isSome && options.keyAltName.isSome, "key_id and key_alt_name are mutually exclusive"),
    (options.keyId.isNone && options.keyAltName.isNone, "one of key_id or key_alt_name is required"),
    (options.keyAltName = some "", "key_alt_name must not be empty")]

def queryComplaints (options : EncryptOptions) : Complaints :=
  [(!options.algorithm.isQueryable && options.contentionFactor.isSome,
      "contention factor is not valid with algorithm " ++ options.algorithm.name),
    (!options.algorithm.isQueryable && options.queryType.isSome,
      "query type is not valid with algorithm " ++ options.algorithm.name)]

def contentionComplaints (options : EncryptOptions) : Complaints :=
  [(options.contentionFactor.any (· < 0), "contention factor must not be negative")]

def complaints (options : EncryptOptions) : Complaints :=
  options.keyComplaints ++ (options.queryComplaints ++ options.contentionComplaints)

theorem checkKey_eq (options : EncryptOptions) : options.checkKey = options.keyComplaints.verdict := by
  obtain ⟨algorithm, keyId, keyAltName, contentionFactor, queryType⟩ := options
  cases keyId with
  | some id => cases keyAltName <;> simp [checkKey, keyComplaints, Complaints.verdict, Complaints.first?]
  | none =>
    cases keyAltName with
    | none => rfl
    | some name =>
      by_cases hname : name = ""
      · subst hname
        rfl
      · simp [checkKey, keyComplaints, Complaints.verdict, Complaints.first?, hname]

theorem checkQuery_eq (options : EncryptOptions) : options.checkQuery = options.queryComplaints.verdict := by
  obtain ⟨algorithm, keyId, keyAltName, contentionFactor, queryType⟩ := options
  unfold checkQuery queryComplaints Complaints.verdict Complaints.first?
  cases algorithm.isQueryable <;> cases contentionFactor <;> cases queryType <;> rfl

theorem checkContention_eq (options : EncryptOptions) :
    options.checkContention = options.contentionComplaints.verdict := by
  unfold checkContention contentionComplaints Complaints.verdict Complaints.first?
  cases options.contentionFactor.any (· < 0) <;> rfl

theorem validate_eq (options : EncryptOptions) : options.validate = options.complaints.verdict := by
  rw [complaints, Complaints.verdict_append, Complaints.verdict_append, ← checkKey_eq, ← checkQuery_eq,
    ← checkContention_eq]
  rfl

theorem keyComplaints_eq_none_iff : options.keyComplaints.first? = none ↔
    (options.keyId.isSome ↔ options.keyAltName = none) ∧ options.keyAltName ≠ some "" := by
  rw [Complaints.first?_eq_none_iff]
  cases hid : options.keyId <;> cases hname : options.keyAltName <;> simp [keyComplaints, hid, hname]

theorem queryComplaints_eq_none_iff : options.queryComplaints.first? = none ↔
    (options.contentionFactor.isSome ∨ options.queryType.isSome →
      options.algorithm = .indexed ∨ options.algorithm = .range) := by
  rw [Complaints.first?_eq_none_iff]
  cases halgorithm : options.algorithm <;> simp [queryComplaints, halgorithm, Algorithm.isQueryable]

theorem contentionComplaints_eq_none_iff : options.contentionComplaints.first? = none ↔
    ∀ factor, options.contentionFactor = some factor → 0 ≤ factor := by
  rw [Complaints.first?_eq_none_iff]
  cases hfactor : options.contentionFactor <;> simp [contentionComplaints, hfactor]

theorem valid_iff : options.Valid ↔ options.complaints.first? = none := by
  rw [complaints, Complaints.first?_append, Option.or_eq_none_iff, Complaints.first?_append,
    Option.or_eq_none_iff, keyComplaints_eq_none_iff, queryComplaints_eq_none_iff,
    contentionComplaints_eq_none_iff]
  constructor
  · intro h
    exact ⟨⟨h.oneKey, h.named⟩, h.queryable, h.contention⟩
  · intro ⟨⟨honeKey, hnamed⟩, hqueryable, hcontention⟩
    exact ⟨honeKey, hnamed, hcontention, hqueryable⟩

end EncryptOptions

namespace RewrapOptions

variable {options : RewrapOptions}

/-- There is a provider wherever there is a master key, and none is empty. -/
structure Valid (options : RewrapOptions) : Prop where
  provided : options.masterKey.isSome → options.provider.isSome
  named : options.provider ≠ some ""

def complaints (options : RewrapOptions) : Complaints :=
  [(options.masterKey.isSome && options.provider.isNone, "missing the provider for the new master key"),
    (options.provider = some "", "provider must not be empty")]

theorem validate_eq (options : RewrapOptions) : options.validate = options.complaints.verdict := by
  obtain ⟨provider, masterKey⟩ := options
  cases provider with
  | none => cases masterKey <;> rfl
  | some provider =>
    by_cases hname : provider = ""
    · subst hname
      cases masterKey <;> rfl
    · simp [validate, complaints, Complaints.verdict, Complaints.first?, hname]

theorem valid_iff : options.Valid ↔ options.complaints.first? = none := by
  have hfields : options.Valid ↔
      (options.masterKey.isSome → options.provider.isSome) ∧ options.provider ≠ some "" :=
    ⟨fun h => ⟨h.provided, h.named⟩, fun h => ⟨h.1, h.2⟩⟩
  rw [hfields, Complaints.first?_eq_none_iff]
  cases hprovider : options.provider <;> simp [complaints, hprovider]

end RewrapOptions

namespace Operation

/-- Decryptions are always valid. -/
def Valid : Operation → Prop
  | .encrypt database _ => database ≠ ""
  | .createDataKey provider _ => provider ≠ ""
  | .encryptExplicitly _ options => options.Valid
  | .decryptExplicitly value => value.subtype = 6
  | .rewrapDataKeys _ options => options.Valid
  | .decrypt _ | .close => True

/-- The complaint about the arguments, if there is one. -/
def complaint? : Operation → Option String
  | .encrypt database _ => if database = "" then some "database name must not be empty" else none
  | .createDataKey provider _ => if provider = "" then some "KMS provider must not be empty" else none
  | .encryptExplicitly _ options => options.complaints.first?.map fun text => "invalid argument: " ++ text
  | .decryptExplicitly value =>
    if value.subtype = 6 then none
    else some ("expected an encrypted binary (subtype 6), got subtype " ++ toString value.subtype.toNat)
  | .rewrapDataKeys _ options => options.complaints.first?.map fun text => "invalid argument: " ++ text
  | .decrypt _ | .close => none

theorem valid_iff {op : Operation} : op.Valid ↔ op.complaint? = none := by
  cases op with
  | encrypt database command => simp [Valid, complaint?]
  | decrypt response => simp [Valid, complaint?]
  | createDataKey provider options => simp [Valid, complaint?]
  | encryptExplicitly value options =>
    rw [complaint?, Option.map_eq_none_iff]
    exact EncryptOptions.valid_iff
  | decryptExplicitly value => simp [Valid, complaint?]
  | rewrapDataKeys filter options =>
    rw [complaint?, Option.map_eq_none_iff]
    exact RewrapOptions.valid_iff
  | close => simp [Valid, complaint?]

end Operation

end FieldSeal
