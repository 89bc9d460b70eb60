import FieldSeal.Proofs.Client.Execution
import FieldSeal.Proofs.Client.Scripted
import FieldSeal.Proofs.Client.Validity

/-!
When an operation gets as far as the engine, and with what. A context is asked for once if the client is open, the
arguments are valid and no bypass applies; in all other cases no call is made at all, and the order of the checks
decides the outcome.
-/

namespace FieldSeal

open FieldSeal.Action FieldSeal.Trace

/-- A context is asked for, whether or not one is made. -/
def Event.asksForContext : Event → Bool
  | .engine (.createContext _) _ => true
  | _ => false

theorem Event.not_asksForContext_of_ofContext {e : Event} (h : e.ofContext = true) :
    e.asksForContext = false := by
  unfold asksForContext
  split
  · cases h
  · rfl

namespace Operation

/-- Only commands can be bypassed, and only for commands does the client look whether it is closed before it
looks at the arguments. -/
def isCommand : Operation → Bool
  | .encrypt _ _ => true
  | _ => false

/-- The answer where encryption is bypassed: the command as it is. -/
def unchanged? : (op : Operation) → Option op.Answer
  | .encrypt _ command => some command
  | _ => none

/-- The request for an operation carries exactly its arguments. A single value is the one member of an envelope,
a binary in canonical form. -/
inductive Carries : Operation → Request → Prop where
  | encrypt (database : String) (command : Document) :
      Carries (.encrypt database command) (.encryptCommand database command)
  | decrypt (response : Document) : Carries (.decrypt response) (.decryptResponse response)
  | createDataKey (provider : String) (options : DataKeyOptions) :
      Carries (.createDataKey provider options) (.createDataKey provider options)
  | encryptExplicitly (value : Json) (options : EncryptOptions) :
      Carries (.encryptExplicitly value options) (.encryptValue [("v", value)] options)
  | decryptExplicitly (bytes : Bytes) :
      Carries (.decryptExplicitly ⟨6, bytes⟩) (.decryptValue [("v", .object [("$binary", .object
        [("base64", .string (Base64.encode bytes)), ("subType", .string "06")])])])
  | rewrapDataKeys (filter : Document) (options : RewrapOptions) :
      Carries (.rewrapDataKeys filter options) (.rewrapDataKeys filter options)

theorem exists_request {op : Operation} (hop : op ≠ .close) : ∃ request, op.request? = some request := by
  cases op with
  | close => exact absurd rfl hop
  | _ => exact ⟨_, rfl⟩

theorem carries_request {op : Operation} {request : Request} (hvalid : op.Valid)
    (hrequest : op.request? = some request) : Carries op request := by
  cases op with
  | close => cases hrequest
  | decryptExplicitly value =>
    cases hrequest
    obtain ⟨subtype, bytes⟩ := value
    obtain rfl : subtype = 6 := hvalid
    have hhex : Bytes.hex [6] = "06" := by decide
    rw [Binary.toJson, hhex]
    exact .decryptExplicitly bytes
  | encrypt database command =>
    cases hrequest
    exact .encrypt database command
  | decrypt response =>
    cases hrequest
    exact .decrypt response
  | createDataKey provider options =>
    cases hrequest
    exact .createDataKey provider options
  | encryptExplicitly value options =>
    cases hrequest
    exact .encryptExplicitly value options
  | rewrapDataKeys filter options =>
    cases hrequest
    exact .rewrapDataKeys filter options

end Operation

namespace Client

variable {σ : Type} {setting : Setting σ} {scene : Scene σ} {c : Client} {op : Operation} {request : Request}

/-- Encryption of commands is bypassed. -/
def Bypasses (c : Client) (op : Operation) : Prop :=
  c.bypass = true ∧ op.isCommand = true

theorem ensureOpen_of_closed (hclosed : c.closed = true) : c.ensureOpen = .error .closed :=
  if_pos hclosed

theorem ensureOpen_of_open (hopen : c.closed = false) : c.ensureOpen = .ok () :=
  if_neg (Bool.eq_false_iff.1 hopen)

theorem execute_of_closed (hclosed : c.closed = true) (request : Request) (database : Option String) :
    (c.execute request database : Action σ ClientError Document) = fail .closed := by
  unfold execute
  rw [ensureOpen_of_closed hclosed]
  rfl

theorem encryptOptions_refused {options : EncryptOptions} {text : String}
    (h : options.complaints.first? = some text) : options.validate = .error (.invalidArgument text) := by
  rw [EncryptOptions.validate_eq, Complaints.verdict, h]

theorem encryptOptions_passed {options : EncryptOptions} (h : options.Valid) : options.validate = .ok () := by
  rw [EncryptOptions.validate_eq, Complaints.verdict, EncryptOptions.valid_iff.1 h]

theorem rewrapOptions_refused {options : RewrapOptions} {text : String}
    (h : options.complaints.first? = some text) : options.validate = .error (.invalidArgument text) := by
  rw [RewrapOptions.validate_eq, Complaints.verdict, h]

theorem rewrapOptions_passed {options : RewrapOptions} (h : options.Valid) : options.validate = .ok () := by
  rw [RewrapOptions.validate_eq, Complaints.verdict, RewrapOptions.valid_iff.1 h]

/-- Arguments that are not valid are a matter of configuration. -/
theorem perform_of_complaint {reason : String} (hreason : op.complaint? = some reason)
    (hfirst : c.closed = false ∨ op.isCommand = false) :
    (c.perform op : Action σ ClientError op.Answer) = fail (.configuration reason) := by
  cases op with
  | encrypt database command =>
    have hopen : c.closed = false := hfirst.resolve_right nofun
    show c.encrypt database command = _
    unfold encrypt
    rw [ensureOpen_of_open hopen]
    by_cases hname : database = ""
    · subst hname
      cases hreason
      rfl
    · rw [Operation.complaint?, if_neg hname] at hreason
      cases hreason
  | decrypt response => cases hreason
  | createDataKey provider options =>
    show c.createDataKey provider options = _
    unfold createDataKey
    by_cases hname : provider = ""
    · subst hname
      cases hreason
      rfl
    · rw [Operation.complaint?, if_neg hname] at hreason
      cases hreason
  | encryptExplicitly value options =>
    obtain ⟨text, htext, rfl⟩ := Option.map_eq_some_iff.1 hreason
    show c.encryptExplicitly value options = _
    unfold encryptExplicitly
    rw [encryptOptions_refused htext]
    rfl
  | decryptExplicitly value =>
    show c.decryptExplicitly value = _
    unfold decryptExplicitly
    by_cases hsubtype : value.subtype = 6
    · rw [Operation.complaint?, if_pos hsubtype] at hreason
      cases hreason
    · rw [Operation.complaint?, if_neg hsubtype] at hreason
      cases hreason
      have hencrypted : ¬ value.isEncrypted = true := fun h => hsubtype (of_decide_eq_true h)
      rw [if_neg hencrypted]
      rfl
  | rewrapDataKeys filter options =>
    obtain ⟨text, htext, rfl⟩ := Option.map_eq_some_iff.1 hreason
    show c.rewrapDataKeys filter options = _
    unfold rewrapDataKeys
    rw [rewrapOptions_refused htext]
    rfl
  | close => cases hreason

theorem perform_of_bypasses (hopen : c.closed = false) (hvalid : op.Valid) (hbypass : c.Bypasses op) :
    ∃ answer, op.unchanged? = some answer ∧ (c.perform op : Action σ ClientError op.Answer) = pure answer := by
  obtain ⟨hflag, hcommand⟩ := hbypass
  cases op with
  | encrypt database command =>
    refine ⟨command, rfl, ?_⟩
    show c.encrypt database command = _
    unfold encrypt
    rw [ensureOpen_of_open hopen, if_neg hvalid, if_pos hflag]
    rfl
  | _ => cases hcommand

/-- Where failures are passed on as they are, reading the answer is all that an operation adds. -/
theorem answer_apply (op : Operation) (hfailure : ∀ e, op.failure e = e)
    (p : Action σ ClientError Document) :
    (p >>= fun output => ofExcept (op.answer output)) setting scene =
      (p setting scene).withEnding (op.conclude (p setting scene).ending) := by
  rw [bind_apply]
  generalize p setting scene = run
  obtain ⟨ending, t, scene'⟩ := run
  cases ending with
  | done output =>
    rw [Run.andThen_done, Operation.conclude]
    cases op.answer output <;> simp [Action.ofExcept, fail, Run.withEnding, Ending.ofExcept]
  | failed e =>
    rw [Run.andThen_failed, Operation.conclude, hfailure]
    rfl
  | expired => rfl
  | unfinished => rfl

/-- An operation whose arguments are valid is an execution, with the ending turned into its own. -/
theorem perform_eq_execute (hrequest : op.request? = some request) (hvalid : op.Valid)
    (hbypass : ¬ c.Bypasses op) :
    c.perform op setting scene = (c.execute request op.database setting scene).withEnding
      (op.conclude (c.execute request op.database setting scene).ending) := by
  cases op with
  | encrypt database command =>
    cases hrequest
    show c.encrypt database command setting scene = _
    unfold encrypt
    cases hclosed : c.closed with
    | true =>
      have hdatabase : (Operation.encrypt database command).database = some database := rfl
      rw [hdatabase, execute_of_closed hclosed, ensureOpen_of_closed hclosed]
      rfl
    | false =>
      have hflag : ¬ c.bypass = true := fun h => hbypass ⟨h, rfl⟩
      rw [ensureOpen_of_open hclosed, if_neg hvalid, if_neg hflag, ← bind_pure (c.execute _ _)]
      exact answer_apply (.encrypt database command) (fun _ => rfl) _
  | decrypt response =>
    cases hrequest
    have hdatabase : (Operation.decrypt response).database = none := rfl
    show c.decrypt response setting scene = _
    unfold decrypt mapError
    rw [hdatabase]
    generalize c.execute (.decryptResponse response) none setting scene = run
    obtain ⟨ending, t, scene'⟩ := run
    cases ending <;> rfl
  | createDataKey provider options =>
    cases hrequest
    show c.createDataKey provider options setting scene = _
    unfold createDataKey
    rw [if_neg hvalid, ← bind_pure (c.execute _ _)]
    exact answer_apply (.createDataKey provider options) (fun _ => rfl) _
  | encryptExplicitly value options =>
    cases hrequest
    show c.encryptExplicitly value options setting scene = _
    unfold encryptExplicitly
    rw [encryptOptions_passed hvalid]
    exact answer_apply (.encryptExplicitly value options) (fun _ => rfl) _
  | decryptExplicitly value =>
    cases hrequest
    have hencrypted : value.isEncrypted = true := decide_eq_true hvalid
    show c.decryptExplicitly value setting scene = _
    unfold decryptExplicitly
    rw [if_pos hencrypted]
    exact answer_apply (.decryptExplicitly value) (fun _ => rfl) _
  | rewrapDataKeys filter options =>
    cases hrequest
    show c.rewrapDataKeys filter options setting scene = _
    unfold rewrapDataKeys
    rw [rewrapOptions_passed hvalid, ← bind_pure (c.execute _ _)]
    exact answer_apply (.rewrapDataKeys filter options) (fun _ => rfl) _
  | close => cases hrequest

theorem perform_executed (setting : Setting σ) (scene : Scene σ) (op : Operation)
    (hrequest : op.request? = some request) (hvalid : op.Valid) (hbypass : ¬ c.Bypasses op) : ∃ final,
    Executed setting c request op.database (c.perform op setting scene).trace final ∧
      (c.perform op setting scene).ending = op.conclude final := by
  rw [perform_eq_execute hrequest hvalid hbypass]
  exact ⟨_, yields_execute c request op.database scene, rfl⟩

/-- A closed client answers an operation that would otherwise reach the engine, and every command, with its own
failure. -/
theorem perform_of_closed (hop : op ≠ .close) (hclosed : c.closed = true)
    (hfirst : op.Valid ∨ op.isCommand = true) :
    (c.perform op : Action σ ClientError op.Answer) = fail (op.failure .closed) := by
  cases hcommand : op.isCommand with
  | true =>
    cases op with
    | encrypt database command =>
      show c.encrypt database command = _
      unfold encrypt
      rw [ensureOpen_of_closed hclosed]
      rfl
    | _ => cases hcommand
  | false =>
    have hvalid : op.Valid := hfirst.resolve_right (by simp [hcommand])
    have hbypass : ¬ c.Bypasses op := fun h => by simp [h.2] at hcommand
    obtain ⟨request, hrequest⟩ := Operation.exists_request hop
    funext setting scene
    rw [perform_eq_execute hrequest hvalid hbypass, execute_of_closed hclosed]
    rfl

/-- The engine is reached where the client is open, the arguments are valid and no bypass applies. -/
def Admits (c : Client) (op : Operation) : Prop :=
  c.closed = false ∧ op.Valid ∧ ¬ c.Bypasses op

/-- How an operation ends that is not admitted. -/
inductive Declined (c : Client) (op : Operation) : Ending ClientError op.Answer → Prop where
  | closed (hclosed : c.closed = true) : Declined c op (.failed (op.failure .closed))
  | invalid {reason : String} (hreason : op.complaint? = some reason) :
      Declined c op (.failed (.configuration reason))
  | bypassed {answer : op.Answer} (hanswer : op.unchanged? = some answer) : Declined c op (.done answer)

theorem Declined.ne_expired {ending : Ending ClientError op.Answer} (h : Declined c op ending) :
    ending ≠ .expired := by
  cases h <;> exact nofun

theorem Declined.ne_unfinished {ending : Ending ClientError op.Answer} (h : Declined c op ending) :
    ending ≠ .unfinished := by
  cases h <;> exact nofun

/-- An operation that is not admitted is over at once. -/
theorem perform_of_not_admits (setting : Setting σ) (scene : Scene σ) (hop : op ≠ .close) (h : ¬ c.Admits op) :
    ∃ ending, c.perform op setting scene = ⟨ending, [], scene⟩ ∧ Declined c op ending := by
  have hclosed : c.closed = true → op.Valid ∨ op.isCommand = true →
      ∃ ending, c.perform op setting scene = ⟨ending, [], scene⟩ ∧ Declined c op ending := by
    intro hclosed hfirst
    rw [perform_of_closed hop hclosed hfirst]
    exact ⟨_, rfl, .closed hclosed⟩
  by_cases hvalid : op.Valid
  · cases hopen : c.closed with
    | true => exact hclosed hopen (.inl hvalid)
    | false =>
      have hbypass : c.Bypasses op := Classical.byContradiction fun hnot => h ⟨hopen, hvalid, hnot⟩
      obtain ⟨answer, hunchanged, hanswer⟩ := perform_of_bypasses hopen hvalid hbypass
      rw [hanswer]
      exact ⟨_, rfl, .bypassed hunchanged⟩
  · obtain ⟨reason, hreason⟩ := Option.ne_none_iff_exists'.1 (mt Operation.valid_iff.2 hvalid)
    by_cases hfirst : c.closed = false ∨ op.isCommand = false
    · rw [perform_of_complaint hreason hfirst]
      exact ⟨_, rfl, .invalid hreason⟩
    · simp only [not_or, Bool.not_eq_false] at hfirst
      exact hclosed hfirst.1 (.inr hfirst.2)

/-- A context is asked for at the start of an execution, and never again. -/
theorem Executed.asks {database : Option String} {t : List Event} {ending : Ending ClientError Document}
    (h : Executed setting c request database t ending) (hopen : c.closed = false) :
    ∃ answer rest, t = .engine (.createContext request) answer :: rest ∧
      ∀ e ∈ rest, e.asksForContext = false := by
  cases h with
  | closed hclosed => simp [hopen] at hclosed
  | rejected hopen e => exact ⟨.error e, [], rfl, List.forall_mem_nil _⟩
  | @driven t _ hopen hrun =>
    refine ⟨.ok (), t ++ released ending, rfl, List.forall_mem_append.2 ⟨?_, ?_⟩⟩
    · have hprotocol := (yields_drive c database).of_hasRun hrun
      exact fun e he => Event.not_asksForContext_of_ofContext (hprotocol.ofContext e he)
    · cases ending <;> simp [released, Event.asksForContext]

/-- When an operation reaches the engine, with what, and how it ends where it does not. -/
structure Admission (c : Client) (op : Operation) (t : List Event) (ending : Ending ClientError op.Answer) :
    Prop where
  /-- One context is asked for, first of all, with a request that carries the arguments. -/
  admitted : c.Admits op → ∃ request answer rest, op.Carries request ∧
    t = .engine (.createContext request) answer :: rest ∧ ∀ e ∈ rest, e.asksForContext = false
  /-- In all other cases no call is made, be it on the engine or on a service. -/
  kept : ¬ c.Admits op → t = []
  /-- A command that is bypassed comes back as it is. -/
  bypassed : c.closed = false → op.Valid → c.Bypasses op →
    ∃ answer, op.unchanged? = some answer ∧ ending = .done answer
  /-- A command is refused because the client is closed before its database is looked at; any other
  operation is refused so only if its arguments are valid. -/
  closed : c.closed = true → op.Valid ∨ op.isCommand = true → ending = .failed (op.failure .closed)
  /-- The first complaint about the arguments is the one reported. -/
  invalid : ∀ reason, op.complaint? = some reason → c.closed = false ∨ op.isCommand = false →
    ending = .failed (.configuration reason)

theorem perform_admission (setting : Setting σ) (scene : Scene σ) (c : Client) {op : Operation}
    (hop : op ≠ .close) :
    Admission c op (c.perform op setting scene).trace (c.perform op setting scene).ending where
  admitted := by
    intro ⟨hopen, hvalid, hbypass⟩
    obtain ⟨request, hrequest⟩ := Operation.exists_request hop
    obtain ⟨answer, rest, htrace, hrest⟩ := (yields_execute c request op.database scene).asks hopen
    rw [perform_eq_execute hrequest hvalid hbypass]
    exact ⟨request, answer, rest, Operation.carries_request hvalid hrequest, htrace, hrest⟩
  kept := by
    intro h
    obtain ⟨ending, hperform, -⟩ := perform_of_not_admits setting scene hop h
    rw [hperform]
  bypassed := by
    intro hopen hvalid hbypass
    obtain ⟨answer, hunchanged, hanswer⟩ := perform_of_bypasses hopen hvalid hbypass
    rw [hanswer]
    exact ⟨answer, hunchanged, rfl⟩
  closed := by
    intro hclosed hfirst
    rw [perform_of_closed hop hclosed hfirst]
    rfl
  invalid := by
    intro reason hreason hfirst
    rw [perform_of_complaint hreason hfirst]
    rfl

/-- The client of the scripted world decrypts a single value, for which a context is made, and no key is wanted. -/
theorem perform_admission_scripted :
    Operation.decryptExplicitly ⟨6, [1, 2]⟩ ≠ .close ∧
      Admission scriptedClient (.decryptExplicitly ⟨6, [1, 2]⟩)
        [.engine (.createContext (.decryptValue [("v", .object [("$binary", .object
            [("base64", .string "AQI="), ("subType", .string "06")])])])) (.ok ()),
          .engine .phase (.ok .ready), .engine .finish (.ok []), .engine .release ()]
        (.failed (.invalidOutput "missing \"v\" field")) :=
  ⟨nofun, perform_admission scriptedSetting ⟨0, ⟨[.ready], [], 0⟩⟩ scriptedClient nofun⟩

end Client

end FieldSeal
