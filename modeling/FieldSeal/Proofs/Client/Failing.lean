import FieldSeal.Proofs.Client.Admission
import FieldSeal.Proofs.Client.Causes
import FieldSeal.Proofs.Document.Canonical
import FieldSeal.Proofs.Failure.Wrapping
import FieldSeal.Proofs.Kms.Discipline

/-!
How operations fail. A failure comes out in one of a few forms, as it is or wrapped once, and its form tells where it
comes from.
-/

namespace FieldSeal

open FieldSeal.Action FieldSeal.Trace

namespace ClientError

/-- The forms in which failures come out. What is wrapped is neither wrapped already nor of the engine. -/
inductive Shaped : ClientError → Prop where
  | bare {e : ClientError} (h : e.isBare = true) : Shaped e
  | wrapped {e : ClientError} (h : e.isBare = true) (hengine : ∀ error, e ≠ .engine error) :
      Shaped (.encryption e)

/-- Only two kinds of failure are raised wrapped. -/
theorem of_raised {e f : ClientError} (hbare : e.isBare = true) (h : e.raised = .encryption f) :
    (∃ cause, f = .marking cause) ∨ ∃ error, f = .kms error := by
  cases e with
  | marking cause => exact .inl ⟨cause, (ClientError.encryption.inj h).symm⟩
  | kms error => exact .inr ⟨error, (ClientError.encryption.inj h).symm⟩
  | encryption inner => cases hbare
  | _ => cases h

end ClientError

namespace Operation

def isDecryption : Operation → Bool
  | .decrypt _ => true
  | _ => false

theorem failure_of_not_isDecryption {op : Operation} (h : op.isDecryption = false) (e : ClientError) :
    op.failure e = e := by
  cases op with
  | decrypt response => cases h
  | _ => rfl

/-- What is of the encryption layer already is not wrapped again. -/
theorem failure_of_isEncryption (op : Operation) {e : ClientError} (h : e.isEncryption = true) : op.failure e = e := by
  cases op with
  | decrypt response => exact if_pos h
  | _ => rfl

/-- An operation other than a decryption passes failures on as they are raised, a decryption wraps them. -/
theorem shaped_failure (op : Operation) {e : ClientError} (h : e.isBare = true) :
    (op.failure e.raised).Shaped ∧ (op.failure e.raised).root = e := by
  have hwrapped : ∀ {error : ClientError}, error.isBare = true → (∀ inner, error ≠ .engine inner) →
      (ClientError.encryption error).Shaped ∧ (ClientError.encryption error).root = error := by
    intro error hbare hengine
    refine ⟨.wrapped hbare hengine, ?_⟩
    cases error <;> first | rfl | cases hbare
  have hbare : ∀ {error : ClientError}, error.isBare = true → error.Shaped ∧ error.root = error := by
    intro error hbare
    refine ⟨.bare hbare, ?_⟩
    cases error <;> first | rfl | cases hbare
  cases hdecryption : op.isDecryption with
  | false =>
    rw [failure_of_not_isDecryption hdecryption]
    cases e with
    | marking cause => exact hwrapped rfl nofun
    | kms error => exact hwrapped rfl nofun
    | _ => exact hbare h
  | true =>
    cases op with
    | decrypt response =>
      cases e with
      | engine error => exact hbare h
      | encryption inner => cases h
      | release resource cause => cases h
      | _ => exact hwrapped rfl nofun
    | _ => cases hdecryption

end Operation

namespace Client

variable {σ : Type} {setting : Setting σ} {scene : Scene σ} {c : Client} {op : Operation} {t u : List Event}

/-- The same of an operation, whose failures are those of its execution or come before or after it. -/
structure Accounted (setting : Setting σ) (scene : Scene σ) (c : Client) (op : Operation)
    (run : Run σ ClientError op.Answer) (trips : List (Trip σ)) : Prop where
  marked : Trips setting c scene run.trace trips run.scene
  tripped : ∀ trip ∈ trips, ∀ stop : Stop KmsError, trip.outcome = stop.ending →
    run.ending = (stop.ending : Ending KmsError op.Answer).mapError fun e => .encryption (.kms e)
  caused : ∀ e, run.ending = .failed e → ∃ f, Cause c op run.trace trips f ∧ e = op.failure f.raised
  decided : ∀ x ∈ run.trace, ∀ e, x.verdict? = some (.error e) → run.ending = .failed (op.failure e)

theorem Declined.accounted {ending : Ending ClientError op.Answer} (h : Declined c op ending) :
    Accounted setting scene c op ⟨ending, [], scene⟩ [] where
  marked := .nil scene
  tripped _ h := absurd h List.not_mem_nil
  caused := by
    intro e he
    cases h with
    | closed hclosed =>
      cases he
      exact ⟨.closed, .closed hclosed, rfl⟩
    | @invalid reason hreason =>
      cases he
      refine ⟨.configuration reason, .argument hreason, ?_⟩
      cases op with
      | decrypt response => cases hreason
      | _ => rfl
    | bypassed hanswer => cases he
  decided _ h := absurd h List.not_mem_nil

theorem answer_error {document : Document} {e : ClientError} (h : op.answer document = .error e) :
    op.isDecryption = false ∧ ∃ reason, e = .invalidOutput reason := by
  cases op with
  | encryptExplicitly value options => exact ⟨rfl, Envelope.unwrapBinary_error h⟩
  | decryptExplicitly value => exact ⟨rfl, Envelope.unwrap_error h⟩
  | _ => cases h

theorem Explained.accounted {request : Request} {run : Run σ ClientError Document} {trips : List (Trip σ)}
    (h : Explained setting scene c op run trips)
    (hexecuted : Executed setting c request op.database run.trace run.ending) :
    Accounted setting scene c op (run.withEnding (op.conclude run.ending)) trips := by
  obtain ⟨hmarked, htripped, hcaused⟩ := h
  obtain ⟨ending, t, last⟩ := run
  refine ⟨hmarked, ?_, ?_, ?_⟩
  · intro trip htrip stop hstop
    obtain rfl := htripped trip htrip stop hstop
    exact op.conclude_tripped stop
  · intro e hfailed
    cases ending with
    | done document =>
      have hread : (.ofExcept (op.answer document) : Ending ClientError op.Answer) = .failed e := hfailed
      cases hanswer : op.answer document with
      | ok answer => simp [hanswer, Ending.ofExcept] at hread
      | error error =>
        obtain ⟨hdecryption, reason, rfl⟩ := answer_error hanswer
        rw [hanswer] at hread
        rw [← Ending.failed.inj hread]
        refine ⟨.invalidOutput reason, .output (endsWith_iff.2 (hexecuted.exists_output rfl)) hanswer, ?_⟩
        rw [Operation.failure_of_not_isDecryption hdecryption]
        rfl
    | failed error =>
      obtain ⟨f, hcause, rfl⟩ := hcaused error rfl
      exact ⟨f, hcause, (Ending.failed.inj hfailed).symm⟩
    | expired => cases hfailed
    | unfinished => cases hfailed
  · intro x hx e hverdict
    obtain rfl : ending = .failed e := hexecuted.decided hx hverdict
    rfl

theorem perform_accounted (setting : Setting σ) (scene : Scene σ) (c : Client) (hop : op ≠ .close) :
    ∃ trips, Accounted setting scene c op (c.perform op setting scene) trips := by
  by_cases hadmits : c.Admits op
  · obtain ⟨hopen, hvalid, hbypass⟩ := hadmits
    obtain ⟨request, hrequest⟩ := Operation.exists_request hop
    obtain ⟨trips, hexplained⟩ := execute_explained setting scene c op request
    rw [perform_eq_execute hrequest hvalid hbypass]
    exact ⟨trips, hexplained.accounted (yields_execute c request op.database scene)⟩
  · obtain ⟨ending, hperform, hdeclined⟩ := perform_of_not_admits setting scene hop hadmits
    rw [hperform]
    exact ⟨[], hdeclined.accounted⟩

/-- A call on a connection or on the decryptor in hand belongs to a round trip. -/
theorem Trips.exists_trip {last : Scene σ} {trips : List (Trip σ)} (h : Trips setting c scene t trips last) {x : Event}
    (hx : x ∈ t) (hconnection : x.onConnection = true) :
    ∃ trip ∈ trips, x ∈ trip.calls ∧ HasRun setting (c.decryptKey trip.request) trip.calls trip.outcome := by
  induction h with
  | nil scene => cases hx
  | aside h he ht ih =>
    rcases List.mem_cons.1 hx with rfl | hx
    · have hnot := Event.not_ofRoundTrip_of_isAside he
      rw [Event.ofRoundTrip_of_onConnection hconnection] at hnot
      cases hnot
    · exact ih hx
  | trip h hruns ht ih =>
    rcases List.mem_cons.1 hx with rfl | hx
    · cases hconnection
    · rcases List.mem_append.1 hx with hx | hx
      · exact ⟨_, List.mem_cons_self, hx, hruns.hasRun⟩
      · obtain ⟨trip, htrip, hcalls⟩ := ih hx
        exact ⟨trip, List.mem_cons_of_mem _ htrip, hcalls⟩

/-- Bytes are fed to a decryptor only by stream services. -/
theorem outcome_of_feed_error {request : KeyRequest} {calls : List Event} {outcome : Ending KmsError Unit}
    {bytes : Bytes} {error : EngineError} (hrun : HasRun setting (c.decryptKey request) calls outcome)
    (hfeed : .engine (.feed bytes) (.error error) ∈ calls) :
    outcome = .failed (.engine error) ∨ outcome = .expired := by
  cases hservice : c.keyService with
  | stream service =>
    rw [decryptKey, hservice] at hrun
    exact ((service.yields_decryptKey request).of_hasRun hrun).disciplined.of_feed_error hfeed
  | custom =>
    have hcalls : Yields setting (c.decryptKey request) fun t _ => .engine (.feed bytes) (.error error) ∉ t := by
      unfold decryptKey
      rw [hservice]
      refine yields_await (by simp) fun answer => ?_
      cases answer with
      | error e => exact yields_fail (by simp)
      | ok _ => exact yields_pure (by simp)
    exact absurd hfeed (hcalls.of_hasRun hrun)

/-- How an operation fails, given the round trips among its calls. -/
structure Failing (setting : Setting σ) (scene : Scene σ) (c : Client) (op : Operation) (trips : List (Trip σ)) :
    Prop where
  marked : Trips setting c scene (c.perform op setting scene).trace trips (c.perform op setting scene).scene
  /-- However a round trip stops, the operation ends with it. -/
  tripped : ∀ trip ∈ trips, ∀ stop : Stop KmsError, trip.outcome = stop.ending →
    (c.perform op setting scene).ending =
      (stop.ending : Ending KmsError op.Answer).mapError fun e => .encryption (.kms e)
  /-- A failure is wrapped at most once, and none is a failure of closing. -/
  shaped : ∀ e, (c.perform op setting scene).ending = .failed e → e.Shaped
  /-- Every failure has its cause, which it carries unchanged and which is its root. -/
  caused : ∀ e, (c.perform op setting scene).ending = .failed e →
    ∃ f, Cause c op (c.perform op setting scene).trace trips f ∧ e = op.failure f.raised ∧ e.root = f
  /-- A bare failure of the engine is that of a refused call, other than one of a round trip. -/
  engine : ∀ error, (c.perform op setting scene).ending = .failed (.engine error) ↔
    ∃ x ∈ (c.perform op setting scene).trace, x.rejection? = some error
  marking : ∀ cause, (c.perform op setting scene).ending = .failed (.encryption (.marking cause)) ↔
    ∃ database command,
      .service (.mark database command) (some (.error cause)) ∈ (c.perform op setting scene).trace
  kms : ∀ error, (c.perform op setting scene).ending = .failed (.encryption (.kms error)) ↔
    ∃ trip ∈ trips, trip.outcome = .failed error
  /-- Bytes that the engine rejects make the round trip fail, in whatever operation. -/
  fed : ∀ bytes error, .engine (.feed bytes) (.error error) ∈ (c.perform op setting scene).trace →
    (c.perform op setting scene).ending = .failed (.encryption (.kms (.engine error))) ∨
      (c.perform op setting scene).ending = .expired
  /-- Other than in decryptions nothing else is wrapped. -/
  wrapped : op.isDecryption = false → ∀ f, (c.perform op setting scene).ending = .failed (.encryption f) →
    (∃ cause, f = .marking cause) ∨ ∃ error, f = .kms error
  /-- The failure of a decryption is the one with which its execution ends, wrapped unless it is of the encryption
  layer already. -/
  decryption : ∀ response, op = .decrypt response → ∀ e, (c.perform op setting scene).ending = .failed e →
    e.isEncryption = true ∧ ∃ f, (c.execute (.decryptResponse response) none setting scene).ending =
      .failed f.raised ∧ f.isBare = true ∧ e = f.raised.wrap ∧ e.root = f

theorem decrypt_failed (response : Document) {e : ClientError}
    (h : (c.perform (.decrypt response) setting scene).ending = .failed e) :
    e.isEncryption = true ∧ ∃ f, (c.execute (.decryptResponse response) none setting scene).ending =
      .failed f.raised ∧ f.isBare = true ∧ e = f.raised.wrap ∧ e.root = f := by
  have hvalid : (Operation.decrypt response).Valid := trivial
  have hbypass : ¬ c.Bypasses (.decrypt response) := fun h => by cases h.2
  rw [perform_eq_execute rfl hvalid hbypass] at h
  have hending : Operation.conclude (.decrypt response)
      (c.execute (.decryptResponse response) none setting scene).ending = .failed e := h
  obtain ⟨trips, hexplained⟩ := execute_explained setting scene c (.decrypt response) (.decryptResponse response)
  have hcaused : ∀ x, (c.execute (.decryptResponse response) none setting scene).ending = .failed x →
      ∃ f, Cause c (.decrypt response) _ trips f ∧ x = f.raised := hexplained.caused
  generalize (c.execute (.decryptResponse response) none setting scene).ending = ending at hcaused hending ⊢
  cases ending with
  | failed x =>
    obtain ⟨f, hcause, rfl⟩ := hcaused x rfl
    obtain rfl : f.raised.wrap = e := Ending.failed.inj hending
    exact ⟨f.raised.isEncryption_wrap, f, rfl, hcause.isBare, rfl,
      ((Operation.decrypt response).shaped_failure hcause.isBare).2⟩
  | done document => cases hending
  | expired => cases hending
  | unfinished => cases hending

/-- Every failure of an operation comes out in a form that tells where it comes from, with its cause unchanged. -/
theorem perform_failing (setting : Setting σ) (scene : Scene σ) (c : Client) (hop : op ≠ .close) :
    ∃ trips, Failing setting scene c op trips := by
  obtain ⟨trips, hmarked, htripped, hcaused, hdecided⟩ := perform_accounted setting scene c hop
  have hcauses : ∀ e, (c.perform op setting scene).ending = .failed e →
      ∃ f, Cause c op (c.perform op setting scene).trace trips f ∧ e = op.failure f.raised ∧ e.root = f := by
    intro e he
    obtain ⟨f, hcause, rfl⟩ := hcaused e he
    exact ⟨f, hcause, rfl, (op.shaped_failure hcause.isBare).2⟩
  have htrips : ∀ trip ∈ trips, ∀ error, trip.outcome = .failed error →
      (c.perform op setting scene).ending = .failed (.encryption (.kms error)) :=
    fun trip htrip error herror => htripped trip htrip (.failed error) herror
  refine ⟨trips, hmarked, htripped, ?_, hcauses, ?_, ?_, ?_, ?_, ?_, ?_⟩
  · intro e he
    obtain ⟨f, hcause, rfl⟩ := hcaused e he
    exact (op.shaped_failure hcause.isBare).1
  · intro error
    constructor
    · intro he
      obtain ⟨f, hcause, -, rfl⟩ := hcauses _ he
      cases hcause with
      | engine hx hrejection => exact ⟨_, hx, hrejection⟩
    · intro ⟨x, hx, hrejection⟩
      rw [hdecided x hx _ (Event.verdict?_of_rejection? hrejection), op.failure_of_isEncryption rfl]
  · intro cause
    constructor
    · intro he
      obtain ⟨f, hcause, -, rfl⟩ := hcauses _ he
      cases hcause with
      | marking h => exact ⟨_, _, h⟩
    · intro ⟨database, command, h⟩
      rw [hdecided _ h (.encryption (.marking cause)) rfl, op.failure_of_isEncryption rfl]
  · intro error
    constructor
    · intro he
      obtain ⟨f, hcause, -, rfl⟩ := hcauses _ he
      cases hcause with
      | kms htrip houtcome => exact ⟨_, htrip, houtcome⟩
    · intro ⟨trip, htrip, houtcome⟩
      exact htrips trip htrip error houtcome
  · intro bytes error hfeed
    obtain ⟨trip, htrip, hcalls, hrun⟩ := hmarked.exists_trip hfeed rfl
    rcases outcome_of_feed_error hrun hcalls with hfailed | hexpired
    · exact .inl (htrips trip htrip _ hfailed)
    · exact .inr (htripped trip htrip .expired hexpired)
  · intro hdecryption f he
    obtain ⟨g, hcause, hraised, -⟩ := hcauses _ he
    rw [Operation.failure_of_not_isDecryption hdecryption] at hraised
    exact ClientError.of_raised hcause.isBare hraised.symm
  · rintro response rfl e he
    exact decrypt_failed response he

/-- A client with a stream service, in the scripted world. -/
def streamingClient : Client :=
  .explicit (.stream ⟨5, 5, 4, false⟩) {}

/-- The only decryptor is for a host without a name. -/
def namelessHost : Scene Script :=
  ⟨0, ⟨[.needsDecryption], [⟨"aws", "", []⟩], 0⟩⟩

/-- Data keys cannot be rewrapped where the round trip for one of them fails. -/
theorem perform_failing_scripted :
    Operation.rewrapDataKeys [] {} ≠ .close ∧
      ∃ trips, Failing scriptedSetting namelessHost streamingClient (.rewrapDataKeys [] {}) trips ∧
        ∃ trip ∈ trips, trip.outcome = .failed (.invalidHost "") := by
  have hop : Operation.rewrapDataKeys [] {} ≠ .close := nofun
  obtain ⟨trips, hfailing⟩ := perform_failing scriptedSetting namelessHost streamingClient hop
  have hfailed : (streamingClient.perform (.rewrapDataKeys [] {}) scriptedSetting namelessHost).ending =
      .failed (.encryption (.kms (.invalidHost ""))) := by
    with_unfolding_all rfl
  exact ⟨hop, trips, hfailing, (hfailing.kms (.invalidHost "")).1 hfailed⟩

end Client

end FieldSeal
