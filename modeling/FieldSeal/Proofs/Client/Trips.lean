import FieldSeal.Proofs.Client.Execution
import FieldSeal.Proofs.Kms.RoundTripTime

/-!
The round trips of a run, each with the scene that it finds: the one in which its decryptor was handed out. A round trip
that stops is the last, and how it stops is how the context ends.
-/

namespace FieldSeal

open FieldSeal.Action FieldSeal.Trace

/-- The failure of a round trip, as it is raised. -/
def ClientError.isTripFailure : ClientError → Bool
  | .encryption (.kms _) => true
  | _ => false

theorem ClientError.failed_ne_tripFailure {α : Type} {e : ClientError} (hown : e.isTripFailure = false)
    (error : KmsError) : (.failed e : Ending ClientError α) ≠ .failed (.encryption (.kms error)) := by
  rintro ⟨⟩
  cases hown

/-- How a round trip stops is how its operation ends. What is of the encryption layer already is not wrapped again. -/
theorem Operation.conclude_tripped (op : Operation) (stop : Stop KmsError) :
    op.conclude ((stop.ending : Ending KmsError Document).mapError fun e => .encryption (.kms e)) =
      (stop.ending : Ending KmsError op.Answer).mapError fun e => .encryption (.kms e) := by
  cases stop with
  | failed e => cases op <;> rfl
  | expired => rfl
  | unfinished => rfl

namespace Client

variable {σ α β δ : Type} {setting : Setting σ} {c : Client} {first mid later last scene : Scene σ}
  {t u : List Event} {request : KeyRequest}

theorem leads_decryptKey (setting : Setting σ) (c : Client) (request : KeyRequest) (scene : Scene σ) :
    Leads setting.world scene (c.decryptKey request setting scene).trace
      (c.decryptKey request setting scene).scene := by
  unfold decryptKey
  cases c.keyService with
  | stream service => exact (service.records_decryptKey request setting scene).leads
  | custom =>
    have hrecords : Records setting (await (.decryptKey request) >>= ofExcept : Action σ KmsError Unit) scene
        fun _ _ _ => True := by
      refine records_await (fun _ _ _ => trivial) fun answer last _ _ => ?_
      cases answer with
      | error e => exact records_fail trivial
      | ok value => exact records_pure trivial
    exact hrecords.leads

/-- A round trip for a decryptor: the scene that it finds, its calls, and how it goes. -/
structure Trip (σ : Type) where
  request : KeyRequest
  scene : Scene σ
  calls : List Event
  outcome : Ending KmsError Unit

namespace Trip

/-- The decryptor is handed out. -/
def handout (trip : Trip σ) : Event :=
  .engine .nextDecryptor (.ok (some trip.request))

/-- This is what the round trip comes to in its scene. -/
def Runs (trip : Trip σ) (setting : Setting σ) (c : Client) (last : Scene σ) : Prop :=
  c.decryptKey trip.request setting trip.scene = ⟨trip.outcome, trip.calls, last⟩

variable {trip : Trip σ}

theorem Runs.hasRun (h : trip.Runs setting c last) :
    HasRun setting (c.decryptKey trip.request) trip.calls trip.outcome :=
  ⟨trip.scene, congrArg Run.trace h, congrArg Run.ending h⟩

theorem Runs.leads (h : trip.Runs setting c last) : Leads setting.world trip.scene trip.calls last := by
  have hleads := leads_decryptKey setting c trip.request trip.scene
  rw [show c.decryptKey trip.request setting trip.scene = ⟨trip.outcome, trip.calls, last⟩ from h] at hleads
  exact hleads

theorem Runs.ofRoundTrip (h : trip.Runs setting c last) : ∀ e ∈ trip.calls, e.ofRoundTrip = true :=
  ((yields_decryptKey_callsOf c trip.request).of_hasRun h.hasRun).only

theorem Runs.ne_handout (h : trip.Runs setting c last) {before after : List Event} :
    trip.calls ≠ before ++ .engine .nextDecryptor (.ok (some request)) :: after := by
  intro hcalls
  cases h.ofRoundTrip (.engine .nextDecryptor (.ok (some request))) (by simp [hcalls])

end Trip

/-- The round trips of a trace, one for each decryptor that is handed out, in the scene in which it is. All other calls
are aside from them. -/
inductive Trips (setting : Setting σ) (c : Client) : Scene σ → List Event → List (Trip σ) → Scene σ → Prop where
  | nil (scene : Scene σ) : Trips setting c scene [] [] scene
  | aside {first mid last : Scene σ} {e : Event} {t : List Event} {trips : List (Trip σ)}
      (h : Happens setting.world ⟨first, e, mid⟩) (he : e.isAside = true) (ht : Trips setting c mid t trips last) :
      Trips setting c first (e :: t) trips last
  | trip {first later last : Scene σ} {trip : Trip σ} {t : List Event} {trips : List (Trip σ)}
      (h : Happens setting.world ⟨first, trip.handout, trip.scene⟩) (hruns : trip.Runs setting c later)
      (ht : Trips setting c later t trips last) :
      Trips setting c first (trip.handout :: (trip.calls ++ t)) (trip :: trips) last

/-- The calls on a context with the round trips among them, and how they stop if they do. A round trip that is not done
stops them, and they stop with the failure of a round trip only where there is one. -/
inductive Attended (setting : Setting σ) (c : Client) :
    Scene σ → List Event → List (Trip σ) → Option (Stop ClientError) → Scene σ → Prop where
  | nil (scene : Scene σ) {stop? : Option (Stop ClientError)}
      (hown : ∀ e, stop? ≠ some (.failed (.encryption (.kms e)))) : Attended setting c scene [] [] stop? scene
  | aside {first mid last : Scene σ} {e : Event} {t : List Event} {trips : List (Trip σ)}
      {stop? : Option (Stop ClientError)} (h : Happens setting.world ⟨first, e, mid⟩) (he : e.isAside = true)
      (ht : Attended setting c mid t trips stop? last) : Attended setting c first (e :: t) trips stop? last
  | trip {first later last : Scene σ} {trip : Trip σ} {t : List Event} {trips : List (Trip σ)}
      {stop? : Option (Stop ClientError)} (h : Happens setting.world ⟨first, trip.handout, trip.scene⟩)
      (hruns : trip.Runs setting c later) (hdone : trip.outcome = .done ())
      (ht : Attended setting c later t trips stop? last) :
      Attended setting c first (trip.handout :: (trip.calls ++ t)) (trip :: trips) stop? last
  | stopped {first last : Scene σ} {trip : Trip σ} (stop : Stop KmsError)
      (h : Happens setting.world ⟨first, trip.handout, trip.scene⟩) (hruns : trip.Runs setting c last)
      (hstop : trip.outcome = stop.ending) :
      Attended setting c first (trip.handout :: trip.calls) [trip]
        (some (stop.mapError fun e => .encryption (.kms e))) last

namespace Trips

variable {trips others : List (Trip σ)}

theorem of_asides (h : Leads setting.world first t last) (ht : ∀ e ∈ t, e.isAside = true) :
    Trips setting c first t [] last := by
  induction h with
  | nil scene => exact .nil scene
  | cons hfirst hlater ih =>
    obtain ⟨he, ht⟩ := List.forall_mem_cons.1 ht
    exact .aside hfirst he (ih ht)

theorem append (ht : Trips setting c first t trips mid) (hu : Trips setting c mid u others last) :
    Trips setting c first (t ++ u) (trips ++ others) last := by
  induction ht with
  | nil scene => exact hu
  | aside h he ht ih => exact .aside h he (ih hu)
  | trip h hruns ht ih =>
    rw [List.cons_append, List.append_assoc]
    exact .trip h hruns (ih hu)

end Trips

namespace Attended

variable {trips others : List (Trip σ)} {stop? : Option (Stop ClientError)}

theorem marked (h : Attended setting c first t trips stop? last) : Trips setting c first t trips last := by
  induction h with
  | nil scene hown => exact .nil scene
  | aside h he ht ih => exact .aside h he ih
  | trip h hruns hdone ht ih => exact .trip h hruns ih
  | @stopped first last trip stop h hruns hstop =>
    have htrip := Trips.trip h hruns (.nil last)
    rwa [List.append_nil] at htrip

/-- A round trip that stops is how the calls stop. -/
theorem tripped (h : Attended setting c first t trips stop? last) {trip : Trip σ} (htrip : trip ∈ trips)
    {stop : Stop KmsError} (hstop : trip.outcome = stop.ending) :
    stop? = some (stop.mapError fun e => .encryption (.kms e)) := by
  induction h with
  | nil scene hown => cases htrip
  | aside h he ht ih => exact ih htrip
  | trip h hruns hdone ht ih =>
    rcases List.mem_cons.1 htrip with rfl | htrip
    · rw [hdone] at hstop
      cases stop <;> cases hstop
    · exact ih htrip
  | stopped other h hruns hother =>
    rw [List.mem_singleton.1 htrip, hother] at hstop
    rw [Ending.stop_inj hstop]

/-- Where the calls stop with the failure of a round trip, it is among them. -/
theorem exists_failed (h : Attended setting c first t trips stop? last) {error : KmsError}
    (hfailed : stop? = some (.failed (.encryption (.kms error)))) : ∃ trip ∈ trips, trip.outcome = .failed error := by
  induction h with
  | nil scene hown => exact absurd hfailed (hown error)
  | aside h he ht ih => exact ih hfailed
  | trip h hruns hdone ht ih =>
    obtain ⟨trip, htrip, houtcome⟩ := ih hfailed
    exact ⟨trip, List.mem_cons_of_mem _ htrip, houtcome⟩
  | stopped stop h hruns hstop =>
    cases stop with
    | failed e =>
      cases hfailed
      exact ⟨_, List.mem_singleton_self _, hstop⟩
    | expired => cases hfailed
    | unfinished => cases hfailed

theorem append (ht : Attended setting c first t trips none mid) (hu : Attended setting c mid u others stop? last) :
    Attended setting c first (t ++ u) (trips ++ others) stop? last := by
  generalize hnone : (none : Option (Stop ClientError)) = goes at ht
  induction ht with
  | nil scene hown => exact hu
  | aside h he ht ih => exact .aside h he (ih hu hnone)
  | trip h hruns hdone ht ih =>
    rw [List.cons_append, List.append_assoc]
    exact .trip h hruns hdone (ih hu hnone)
  | stopped stop h hruns hstop => cases hnone

/-- A decryptor that is handed out is served by a round trip from this very scene, and one that stops is the last. -/
theorem of_handout (h : Attended setting c first t trips stop? last) {before after : List Event}
    (ht : t = before ++ .engine .nextDecryptor (.ok (some request)) :: after) :
    ∃ (trip : Trip σ) (later : Scene σ) (rest : List Event), trip.request = request ∧ trip.Runs setting c later ∧
      Leads setting.world first (before ++ [trip.handout]) trip.scene ∧ after = trip.calls ++ rest ∧
        ∀ stop : Stop KmsError, trip.outcome = stop.ending →
          rest = [] ∧ stop? = some (stop.mapError fun e => .encryption (.kms e)) := by
  induction h generalizing before with
  | nil scene hown => exact absurd ht (by simp)
  | aside h he hlater ih =>
    rcases cons_eq_split ht with ⟨-, rfl, -⟩ | ⟨rest, rfl, hu⟩
    · cases he
    · obtain ⟨trip, later, rest', hrequest, hruns, hleads, hrest⟩ := ih hu
      exact ⟨trip, later, rest', hrequest, hruns, .cons h hleads, hrest⟩
  | @trip first mid last trip u trips stop? h hruns hdone hlater ih =>
    rcases cons_eq_split ht with ⟨rfl, he, rfl⟩ | ⟨rest, rfl, hu⟩
    · cases he
      refine ⟨trip, mid, u, rfl, hruns, .singleton h, rfl, fun stop hstop => ?_⟩
      rw [hdone] at hstop
      cases stop <;> cases hstop
    · -- the calls of a round trip hand out no decryptor, so that it is one of those after it
      rcases append_eq_split hu with ⟨later, hcalls, -⟩ | ⟨later, hfound, rfl⟩
      · exact absurd hcalls hruns.ne_handout
      · obtain ⟨next, final, rest', hrequest, hnext, hleads, hrest⟩ := ih hfound
        refine ⟨next, final, rest', hrequest, hnext, ?_, hrest⟩
        rw [List.cons_append, List.append_assoc]
        exact .cons h (hruns.leads.append hleads)
  | @stopped first last trip stop h hruns hstop =>
    rcases cons_eq_split ht with ⟨rfl, he, rfl⟩ | ⟨rest, -, hu⟩
    · cases he
      refine ⟨trip, last, [], rfl, hruns, .singleton h, (List.append_nil _).symm, fun other hother => ⟨rfl, ?_⟩⟩
      rw [hstop] at hother
      rw [Ending.stop_inj hother]
    · exact absurd hu hruns.ne_handout

end Attended

/-- From every scene, the calls of the action are attended to their end. -/
def Attends (setting : Setting σ) (c : Client) (p : Action σ ClientError α) : Prop :=
  ∀ scene, ∃ trips, Attended setting c scene (p setting scene).trace trips (p setting scene).ending.stop?
    (p setting scene).scene

theorem attends_pure (a : α) : Attends setting c (pure a : Action σ ClientError α) :=
  fun scene => ⟨[], .nil scene nofun⟩

theorem attends_fail {e : ClientError} (hown : e.isTripFailure = false) :
    Attends setting c (fail e : Action σ ClientError α) := by
  refine fun scene => ⟨[], .nil scene fun error herror => ?_⟩
  cases herror
  cases hown

theorem attends_orFail {f : δ → ClientError} (hown : ∀ x, (f x).isTripFailure = false)
    (answer : Except δ α) : Attends setting c (orFail f answer : Action σ ClientError α) := by
  cases answer with
  | error x => exact attends_fail (hown x)
  | ok a => exact attends_pure a

theorem attends_ask {call : EngineCall} (haside : ∀ answer, (Event.engine call answer).isAside = true) :
    Attends setting c (ask call : Action σ ClientError call.Answer) :=
  fun scene => ⟨[], .aside (.asked call scene) (haside _) (.nil _ nofun)⟩

theorem attends_await {call : ServiceCall} (haside : ∀ answer, (Event.service call answer).isAside = true) :
    Attends setting c (await call : Action σ ClientError call.Answer) := by
  intro scene
  have hrecords : Records setting (await call >>= pure : Action σ ClientError call.Answer) scene
      fun moments last ending => ∃ answer, moments = [⟨scene, .service call answer, last⟩] ∧
        Happens setting.world ⟨scene, .service call answer, last⟩ ∧
        ∀ error, ending.stop? ≠ some (.failed (.encryption (.kms error))) :=
    records_await (fun last h _ => ⟨none, rfl, h, nofun⟩) fun answer last h _ =>
      records_pure ⟨some answer, rfl, h, nofun⟩
  rw [bind_pure] at hrecords
  obtain ⟨moments, -, hevents, answer, rfl, hhappens, hown⟩ := hrecords
  refine ⟨[], ?_⟩
  rw [← hevents]
  exact .aside hhappens (haside answer) (.nil _ hown)

theorem Attends.bind {p : Action σ ClientError α} {f : α → Action σ ClientError β} (hp : Attends setting c p)
    (hf : ∀ a, Attends setting c (f a)) : Attends setting c (p >>= f) := by
  intro scene
  obtain ⟨trips, hattended⟩ := hp scene
  rw [bind_apply]
  generalize p setting scene = run at hattended
  obtain ⟨ending, t, mid⟩ := run
  cases ending with
  | done a =>
    obtain ⟨others, hlater⟩ := hf a mid
    exact ⟨trips ++ others, hattended.append hlater⟩
  | failed e => exact ⟨trips, hattended⟩
  | expired => exact ⟨trips, hattended⟩
  | unfinished => exact ⟨trips, hattended⟩

theorem Attends.orFail {f : δ → ClientError} {p : Action σ ClientError (Except δ α)} (hp : Attends setting c p)
    (hown : ∀ x, (f x).isTripFailure = false) : Attends setting c (p >>= Action.orFail f) :=
  hp.bind (attends_orFail hown)

theorem attends_rounds {round : Action σ ClientError (Option α)} (hround : Attends setting c round) (n : Nat) :
    Attends setting c (rounds round n) := by
  induction n with
  | zero => exact fun scene => ⟨[], .nil scene nofun⟩
  | succ n ih =>
    refine hround.bind fun result => ?_
    cases result with
    | some a => exact attends_pure a
    | none => exact ih

theorem attends_fetchFrom (order : List (String × String)) (doc : Document) :
    Attends setting c (Credentials.fetchFrom order doc) := by
  induction order generalizing doc with
  | nil => exact attends_pure doc
  | cons entry rest ih =>
    obtain ⟨provider, supplier⟩ := entry
    unfold Credentials.fetchFrom
    by_cases hproperties : Credentials.hasProperties doc provider = true
    · rw [if_pos hproperties]
      exact ih doc
    · rw [if_neg hproperties]
      refine (attends_await fun _ => rfl).bind fun answer => ?_
      cases answer with
      | error cause => exact attends_fail rfl
      | ok supplied =>
        cases supplied with
        | none => exact ih doc
        | some properties => exact ih _

theorem attends_autoDatabase (database : Option String) (missing : String) :
    Attends setting c (ofExcept (c.autoDatabase database missing) : Action σ ClientError String) := by
  unfold autoDatabase
  split
  · exact attends_fail rfl
  · exact attends_fail rfl
  · exact attends_pure _

theorem attends_provideCollectionInfo (setting : Setting σ) (c : Client) (database : Option String) :
    Attends setting c (c.provideCollectionInfo database) := by
  refine (attends_autoDatabase database _).bind fun name => ?_
  refine ((attends_ask fun _ => rfl).orFail fun _ => rfl).bind fun filter => ?_
  refine ((attends_await fun _ => rfl).orFail fun _ => rfl).bind fun info => ?_
  have hcomplete : Attends setting c (ask .completeOperation >>= orFail ClientError.engine) :=
    (attends_ask fun _ => rfl).orFail fun _ => rfl
  cases info with
  | none => exact hcomplete
  | some info => exact ((attends_ask fun _ => rfl).orFail fun _ => rfl).bind fun _ => hcomplete

theorem attends_provideMarkings (setting : Setting σ) (c : Client) (database : Option String) :
    Attends setting c (c.provideMarkings database) := by
  refine (attends_autoDatabase database _).bind fun name => ?_
  refine ((attends_ask fun _ => rfl).orFail fun _ => rfl).bind fun command => ?_
  refine ((attends_await fun _ => rfl).orFail fun _ => rfl).bind fun marked => ?_
  refine ((attends_ask fun _ => rfl).orFail fun _ => rfl).bind fun _ => ?_
  exact (attends_ask fun _ => rfl).orFail fun _ => rfl

theorem attends_provideCredentials (setting : Setting σ) (c : Client) : Attends setting c c.provideCredentials :=
  (attends_fetchFrom _ _).bind fun _ => (attends_ask fun _ => rfl).orFail fun _ => rfl

theorem attends_addResults (results : List Document) :
    Attends setting c (addResults results : Action σ ClientError Unit) := by
  induction results with
  | nil => exact attends_pure ()
  | cons result rest ih => exact ((attends_ask fun _ => rfl).orFail fun _ => rfl).bind fun _ => ih

theorem attends_provideKeys (setting : Setting σ) (c : Client) :
    Attends setting c (provideKeys : Action σ ClientError Unit) := by
  refine ((attends_ask fun _ => rfl).orFail fun _ => rfl).bind fun filter => ?_
  refine ((attends_await fun _ => rfl).orFail fun _ => rfl).bind fun keys => ?_
  exact (attends_addResults keys).bind fun _ => (attends_ask fun _ => rfl).orFail fun _ => rfl

/-- A decryptor that is handed out is served at once. -/
theorem attends_decryptNext (setting : Setting σ) (c : Client) : Attends setting c c.decryptNext := by
  intro scene
  have hasked : Happens setting.world ⟨scene, .engine .nextDecryptor _, _⟩ := .asked .nextDecryptor scene
  unfold decryptNext
  simp only [bind_apply, ask, Run.andThen_done]
  generalize (setting.world.engine .nextDecryptor scene.state).1 = answer at hasked
  generalize (⟨scene.now, (setting.world.engine .nextDecryptor scene.state).2⟩ : Scene σ) = mid at hasked
  rcases answer with e | _ | request
  · exact ⟨[], .aside hasked rfl (.nil mid nofun)⟩
  · exact ⟨[], .aside hasked rfl (.nil mid nofun)⟩
  · simp only [orFail, pure_apply, Run.andThen_done, bind_apply, mapError]
    cases hrun : c.decryptKey request setting mid with
    | mk outcome calls later =>
      have hruns : Trip.Runs ⟨request, mid, calls, outcome⟩ setting c later := hrun
      cases outcome with
      | done value => exact ⟨_, .trip hasked hruns rfl (.nil later nofun)⟩
      | failed e => exact ⟨_, .stopped (.failed e) hasked hruns rfl⟩
      | expired => exact ⟨_, .stopped .expired hasked hruns rfl⟩
      | unfinished => exact ⟨_, .stopped .unfinished hasked hruns rfl⟩

theorem attends_decryptKeys (setting : Setting σ) (c : Client) : Attends setting c c.decryptKeys := by
  have hloop : Attends setting c (loop c.decryptNext) :=
    fun scene => attends_rounds (attends_decryptNext setting c) setting.fuel scene
  exact hloop.bind fun _ => (attends_ask fun _ => rfl).orFail fun _ => rfl

theorem attends_round (setting : Setting σ) (c : Client) (database : Option String) :
    Attends setting c (c.round database) := by
  refine ((attends_ask fun _ => rfl).orFail fun _ => rfl).bind fun phase => ?_
  cases phase with
  | needsCollectionInfo => exact (attends_provideCollectionInfo setting c database).bind fun _ => attends_pure none
  | needsMarkings => exact (attends_provideMarkings setting c database).bind fun _ => attends_pure none
  | needsCredentials => exact (attends_provideCredentials setting c).bind fun _ => attends_pure none
  | needsKeys => exact (attends_provideKeys setting c).bind fun _ => attends_pure none
  | needsDecryption => exact (attends_decryptKeys setting c).bind fun _ => attends_pure none
  | ready =>
    show Attends setting c (some <$> (ask .finish >>= orFail ClientError.engine))
    rw [map_eq_pure_bind]
    exact ((attends_ask fun _ => rfl).orFail fun _ => rfl).bind fun document => attends_pure (some document)
  | done => exact attends_pure (some [])
  | unrecognized code => exact attends_fail rfl

theorem attends_drive (setting : Setting σ) (c : Client) (database : Option String) :
    Attends setting c (c.drive database) :=
  fun scene => attends_rounds (attends_round setting c database) setting.fuel scene

/-- The run of an execution with the scenes between its parts: no context comes of it, or one that is driven and then
released. -/
inductive Staged (setting : Setting σ) (c : Client) (request : Request) (scene : Scene σ) :
    Run σ ClientError Document → Prop where
  | undriven {t : List Event} {ending : Ending ClientError Document} {last : Scene σ}
      (hleads : Leads setting.world scene t last) (ht : ∀ e ∈ t, e.isAside = true)
      (hown : ∀ e, ending ≠ .failed (.encryption (.kms e))) : Staged setting c request scene ⟨ending, t, last⟩
  | driven {made late last : Scene σ} {t : List Event} {trips : List (Trip σ)} {ending : Ending ClientError Document}
      (hmade : Happens setting.world ⟨scene, .engine (.createContext request) (.ok ()), made⟩)
      (h : Attended setting c made t trips ending.stop? late)
      (hreleased : Leads setting.world late (released ending) last) :
      Staged setting c request scene
        ⟨ending, .engine (.createContext request) (.ok ()) :: (t ++ released ending), last⟩

theorem execute_staged (setting : Setting σ) (c : Client) (request : Request) (database : Option String)
    (scene : Scene σ) : Staged setting c request scene (c.execute request database setting scene) := by
  unfold execute ensureOpen
  by_cases hclosed : c.closed = true
  · rw [if_pos hclosed]
    exact .undriven (.nil scene) (List.forall_mem_nil _) (ClientError.failed_ne_tripFailure rfl)
  rw [if_neg hclosed]
  have hasked : Happens setting.world ⟨scene, .engine (.createContext request) _, _⟩ :=
    .asked (.createContext request) scene
  simp only [Action.ofExcept, pure_bind]
  simp only [bind_apply, ask, Run.andThen_done]
  generalize (setting.world.engine (.createContext request) scene.state).1 = answer at hasked
  generalize (⟨scene.now, (setting.world.engine (.createContext request) scene.state).2⟩ : Scene σ) = made at hasked
  cases answer with
  | error e =>
    exact .undriven (.singleton hasked) (List.forall_mem_singleton.2 rfl) (ClientError.failed_ne_tripFailure rfl)
  | ok value =>
    obtain ⟨trips, hattended⟩ := attends_drive setting c database made
    simp only [orFail, pure_apply, Run.andThen_done, releasing]
    generalize c.drive database setting made = run at hattended
    obtain ⟨ending, t, late⟩ := run
    have hreleased : Happens setting.world ⟨late, .engine .release _, _⟩ := .asked .release late
    cases ending with
    | unfinished =>
      have hdriven := Staged.driven hasked hattended (.nil late)
      rwa [released, List.append_nil] at hdriven
    | _ => exact .driven hasked hattended (.singleton hreleased)

end Client

end FieldSeal
