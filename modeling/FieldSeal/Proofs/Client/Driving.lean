import FieldSeal.Proofs.Client.Protocol

/-!
The code that drives a context keeps to the protocol: each phase is served by the calls of its round, and the
loop puts the rounds one after the other.
-/

namespace FieldSeal

open FieldSeal.Action

variable {σ : Type} {setting : Setting σ}

theorem Credentials.yields_fetchFrom (order : List (String × String)) (doc : Document) :
    Yields setting (fetchFrom order doc) (CallsOf Event.ofSupplier) := by
  induction order generalizing doc with
  | nil => exact callsOf_pure doc
  | cons entry rest ih =>
    obtain ⟨provider, supplier⟩ := entry
    unfold fetchFrom
    by_cases hproperties : hasProperties doc provider = true
    · rw [if_pos hproperties]
      exact ih doc
    · rw [if_neg hproperties]
      refine callsOf_bind (callsOf_await fun _ => rfl) ?_
      intro answer
      cases answer with
      | error cause => exact callsOf_fail _
      | ok supplied =>
        cases supplied with
        | none => exact ih doc
        | some properties => exact ih _

namespace Client

variable {c : Client} {database : Option String}

theorem yields_decryptKey_callsOf (c : Client) (request : KeyRequest) :
    Yields setting (c.decryptKey request) (CallsOf Event.ofRoundTrip) := by
  unfold decryptKey
  cases c.keyService with
  | custom => exact callsOf_bind (callsOf_await fun _ => rfl) callsOf_ofExcept
  | stream service => exact (service.yields_decryptKey request).mono fun t ending h => h.callsOf

/-- The action serves what is left of a round after the moves that are made. -/
def Serves (setting : Setting σ) (c : Client) (database : Option String) (phase : Phase) (made : List Move)
    (p : Action σ ClientError (Option Document)) : Prop :=
  Yields setting p fun t ending => Served setting c database phase (calls made ++ t) ending

variable {phase : Phase} {made rest : List Move} {move other : Move} {result : Option Document}
  {α δ : Type} {k : α → Action σ ClientError (Option Document)}

theorem genuine_append (hmade : ∀ x ∈ made, x.Genuine setting c) (hmove : move.Genuine setting c) :
    ∀ x ∈ made ++ [move], x.Genuine setting c := by
  intro x hx
  rcases List.mem_append.1 hx with hx | hx
  · exact hmade x hx
  · rw [List.mem_singleton.1 hx]
    exact hmove

@[simp] theorem genuine_engine (call : EngineCall) (answer : call.Answer) :
    (Move.engine call answer).Genuine setting c := trivial

@[simp] theorem genuine_service (call : ServiceCall) (answer : Option call.Answer) :
    (Move.service call answer).Genuine setting c := trivial

theorem serves_pure (hround : Round c database phase made result)
    (hmade : ∀ x ∈ made, x.Genuine setting c) : Serves setting c database phase made (pure result) := by
  refine yields_pure ?_
  rw [List.append_nil]
  exact .complete hround hmade

theorem serves_ask {call : EngineCall} {k : call.Answer → Action σ ClientError (Option Document)}
    (h : ∀ answer, Serves setting c database phase (made ++ [.engine call answer]) (k answer)) :
    Serves setting c database phase made (ask call >>= k) := by
  refine yields_ask fun answer => (h answer).mono fun t ending ht => ?_
  rwa [calls_snoc, List.append_assoc] at ht

/-- A service call of a round may be cut off; nothing is done after that. -/
theorem serves_await {call : ServiceCall} {k : call.Answer → Action σ ClientError (Option Document)}
    (hround : Round c database phase (made ++ other :: rest) result) (halike : other.Alike (.service call none))
    (hmade : ∀ x ∈ made, x.Genuine setting c)
    (h : ∀ answer, Serves setting c database phase (made ++ [.service call (some answer)]) (k answer)) :
    Serves setting c database phase made (await call >>= k) := by
  refine yields_await ?_ fun answer => (h answer).mono fun t ending ht => ?_
  · have hcut : (Move.service call none).stop? = some .expired := by cases call <;> rfl
    have hserved := Served.interrupted hround halike hcut (genuine_append hmade trivial)
    rwa [calls_snoc] at hserved
  · rwa [calls_snoc, List.append_assoc] at ht

/-- A failed answer is the last of the round, and becomes the failure of the operation. -/
theorem serves_orFail {f : δ → ClientError} {answer : Except δ α}
    (herror : ∀ e, answer = .error e → move.stop? = some (.failed (f e)))
    (hround : Round c database phase (made ++ other :: rest) result) (halike : other.Alike move)
    (hmade : ∀ x ∈ made ++ [move], x.Genuine setting c)
    (hok : ∀ a, answer = .ok a → Serves setting c database phase (made ++ [move]) (k a)) :
    Serves setting c database phase (made ++ [move]) (orFail f answer >>= k) := by
  cases answer with
  | error e =>
    refine yields_fail ?_
    rw [List.append_nil]
    exact .interrupted hround halike (herror e rfl) hmade
  | ok a => exact hok a rfl

theorem of_autoDatabase {missing name : String} (h : c.autoDatabase database missing = .ok name) :
    c.isAuto = true ∧ database = some name := by
  unfold autoDatabase at h
  unfold isAuto
  cases hauto : c.auto with
  | none =>
    rw [hauto] at h
    cases h
  | some auto =>
    rw [hauto] at h
    cases database with
    | none => cases h
    | some database =>
      cases h
      exact ⟨rfl, rfl⟩

theorem serves_autoDatabase {missing : String} {k : String → Action σ ClientError (Option Document)}
    (hneeds : requirement phase = some missing)
    (hok : ∀ name, c.isAuto = true → database = some name → Serves setting c database phase [] (k name)) :
    Serves setting c database phase [] (ofExcept (c.autoDatabase database missing) >>= k) := by
  cases h : c.autoDatabase database missing with
  | error e => exact yields_fail (.refused hneeds h)
  | ok name =>
    obtain ⟨hauto, hdatabase⟩ := of_autoDatabase h
    exact hok name hauto hdatabase

theorem serves_provideMarkings (setting : Setting σ) (c : Client) (database : Option String) :
    Serves setting c database .needsMarkings []
      (do c.provideMarkings database; pure none) := by
  unfold provideMarkings
  simp only [bind_assoc]
  refine serves_autoDatabase rfl ?_
  intro name hauto hname
  subst hname
  apply serves_ask
  intro operation
  -- where an answer fails, the round meant is any that goes as far; what it would still bring is left open
  refine serves_orFail (fun e he => by subst he; rfl) (.markings hauto [] []) rfl (by simp) ?_
  intro command hok
  subst hok
  refine serves_await (.markings hauto command []) rfl (by simp) fun marking => ?_
  refine serves_orFail (fun e he => by subst he; rfl) (.markings hauto command []) rfl (by simp) ?_
  intro marked hok
  subst hok
  apply serves_ask
  intro added
  refine serves_orFail (fun e he => by subst he; rfl) (.markings hauto command marked) rfl (by simp) ?_
  intro _ hok
  subst hok
  apply serves_ask
  intro completed
  refine serves_orFail (fun e he => by subst he; rfl) (.markings hauto command marked) rfl (by simp) ?_
  intro _ hok
  subst hok
  exact serves_pure (.markings hauto command marked) (by simp)

theorem serves_provideCollectionInfo (setting : Setting σ) (c : Client) (database : Option String) :
    Serves setting c database .needsCollectionInfo []
      (do c.provideCollectionInfo database; pure none) := by
  unfold provideCollectionInfo
  simp only [bind_assoc]
  refine serves_autoDatabase rfl ?_
  intro name hauto hname
  subst hname
  apply serves_ask
  intro operation
  refine serves_orFail (fun e he => by subst he; rfl) (.collectionInfo hauto [] none) rfl (by simp) ?_
  intro filter hok
  subst hok
  refine serves_await (.collectionInfo hauto filter none) rfl (by simp) fun lookup => ?_
  refine serves_orFail (fun e he => by subst he; rfl) (.collectionInfo hauto filter none) rfl (by simp) ?_
  intro info hok
  subst hok
  cases info with
  | none =>
    simp only [bind_assoc]
    apply serves_ask
    intro completed
    refine serves_orFail (fun e he => by subst he; rfl) (.collectionInfo hauto filter none) rfl (by simp) ?_
    intro _ hok
    subst hok
    exact serves_pure (.collectionInfo hauto filter none) (by simp)
  | some info =>
    simp only [bind_assoc]
    apply serves_ask
    intro added
    refine serves_orFail (fun e he => by subst he; rfl) (.collectionInfo hauto filter (some info)) rfl (by simp) ?_
    intro _ hok
    subst hok
    apply serves_ask
    intro completed
    refine serves_orFail (fun e he => by subst he; rfl) (.collectionInfo hauto filter (some info)) rfl (by simp) ?_
    intro _ hok
    subst hok
    exact serves_pure (.collectionInfo hauto filter (some info)) (by simp)

/-- A fetch is one move, whatever calls it makes. -/
theorem serves_fetch {k : Document → Action σ ClientError (Option Document)}
    (hround : Round c database phase (made ++ other :: rest) result)
    (halike : ∀ t ending, other.Alike (.fetch t ending)) (hmade : ∀ x ∈ made, x.Genuine setting c)
    (h : ∀ t document, (Move.fetch t (.done document)).Genuine setting c →
      Serves setting c database phase (made ++ [.fetch t (.done document)]) (k document)) :
    Serves setting c database phase made (c.credentials.fetch >>= k) := by
  have hfetch : Yields setting c.credentials.fetch fun t ending => (Move.fetch t ending).Genuine setting c :=
    fun scene => ⟨⟨scene, rfl, rfl⟩, Credentials.yields_fetchFrom _ _ scene⟩
  refine hfetch.bind ?_ ?_
  · intro t document ht
    refine (h t document ht).mono fun u ending hu => ?_
    rwa [calls_snoc, List.append_assoc] at hu
  · intro t stop ht
    have hstop : (Move.fetch t stop.ending).stop? = some stop := Ending.stop?_ending stop
    have hserved := Served.interrupted hround (halike t _) hstop (genuine_append hmade ht)
    rwa [calls_snoc] at hserved

theorem serves_provideCredentials (setting : Setting σ) (c : Client) (database : Option String) :
    Serves setting c database .needsCredentials [] (do c.provideCredentials; pure none) := by
  unfold provideCredentials
  simp only [bind_assoc]
  refine serves_fetch (.credentials [] []) (fun _ _ => trivial) (by simp) ?_
  intro t document ht
  apply serves_ask
  intro provided
  refine serves_orFail (fun e he => by subst he; rfl) (.credentials t document) rfl (by simpa using ht) ?_
  intro _ hok
  subst hok
  exact serves_pure (.credentials t document) (by simpa using ht)

/-- Results are added one by one, in their order. -/
theorem serves_addResults {k : Action σ ClientError (Option Document)} (results : List Document)
    (hround : Round c database phase (made ++ results.map Move.added ++ rest) result)
    (hmade : ∀ x ∈ made, x.Genuine setting c)
    (h : (∀ x ∈ made ++ results.map Move.added, x.Genuine setting c) →
      Serves setting c database phase (made ++ results.map Move.added) k) :
    Serves setting c database phase made (addResults results >>= fun _ => k) := by
  induction results generalizing made with
  | nil =>
    rw [List.map_nil, List.append_nil] at h
    exact h hmade
  | cons document documents ih =>
    rw [List.map_cons, List.append_cons] at hround h
    unfold addResults
    simp only [bind_assoc]
    apply serves_ask
    intro answer
    have hnext := genuine_append hmade (genuine_engine (.addResult document) answer)
    -- the results added so far are among the moves made
    have hadded : Round c database phase
        (made ++ .added document :: (documents.map Move.added ++ rest)) result := by
      rwa [List.append_assoc, List.append_assoc] at hround
    refine serves_orFail (fun e he => by subst he; rfl) hadded rfl hnext ?_
    intro _ hok
    subst hok
    exact ih hround hnext h

theorem serves_provideKeys (setting : Setting σ) (c : Client) (database : Option String) :
    Serves setting c database .needsKeys [] (do provideKeys; pure none) := by
  unfold provideKeys
  simp only [bind_assoc]
  apply serves_ask
  intro operation
  refine serves_orFail (fun e he => by subst he; rfl) (.keys [] []) rfl (by simp) ?_
  intro filter hok
  subst hok
  refine serves_await (.keys filter []) rfl (by simp) fun lookup => ?_
  refine serves_orFail (fun e he => by subst he; rfl) (.keys filter []) rfl (by simp) ?_
  intro keys hok
  subst hok
  refine serves_addResults keys (.keys filter keys) (by simp) fun hadded => ?_
  apply serves_ask
  intro completed
  have hcompleted := genuine_append hadded (genuine_engine .completeOperation completed)
  refine serves_orFail (fun e he => by subst he; rfl) (.keys filter keys) rfl hcompleted ?_
  intro _ hok
  subst hok
  exact serves_pure (.keys filter keys) hcompleted

/-- A round trip is one move, whatever calls it makes; its failure is wrapped. -/
theorem serves_decrypt {request : KeyRequest} {k : Unit → Action σ ClientError (Option Document)}
    (hround : Round c database phase (made ++ other :: rest) result)
    (halike : ∀ t ending, other.Alike (.decrypt request t ending)) (hmade : ∀ x ∈ made, x.Genuine setting c)
    (h : ∀ t, (Move.decrypt request t (.done ())).Genuine setting c →
      Serves setting c database phase (made ++ [.decrypt request t (.done ())]) (k ())) :
    Serves setting c database phase made
      (mapError (fun e => (ClientError.kms e).wrap) (c.decryptKey request) >>= k) := by
  let wrapped : Ending KmsError Unit → Ending ClientError Unit := Ending.mapError fun e => (ClientError.kms e).wrap
  have htrip : Yields setting (mapError (fun e => (ClientError.kms e).wrap) (c.decryptKey request))
      fun t ending => ∃ outcome, ending = wrapped outcome ∧ (Move.decrypt request t outcome).Genuine setting c :=
    yields_mapError fun scene => ⟨_, rfl, ⟨scene, rfl, rfl⟩, yields_decryptKey_callsOf c request scene⟩
  refine htrip.bind ?_ ?_
  · intro t _ ht
    obtain ⟨_ | _ | _ | _, hdone, hgenuine⟩ := ht <;> cases hdone
    refine (h t hgenuine).mono fun u ending hu => ?_
    rwa [calls_snoc, List.append_assoc] at hu
  · intro t stop ht
    obtain ⟨outcome, hstopped, hgenuine⟩ := ht
    have hstop : (Move.decrypt request t outcome).stop? = some stop := by
      show (wrapped outcome).stop? = some stop
      rw [← hstopped, Ending.stop?_ending]
    have hserved := Served.interrupted hround (halike t outcome) hstop (genuine_append hmade hgenuine)
    rwa [calls_snoc] at hserved

theorem flatMap_served_snoc (trips : List (KeyRequest × List Event)) (trip : KeyRequest × List Event) :
    (trips ++ [trip]).flatMap Move.served = trips.flatMap Move.served ++
      [.engine .nextDecryptor (.ok (some trip.1))] ++ [.decrypt trip.1 trip.2 (.done ())] := by
  simp [Move.served]

theorem serves_decryptNext {k : Option Unit → Action σ ClientError (Option Document)}
    (trips : List (KeyRequest × List Event)) (hmade : ∀ x ∈ trips.flatMap Move.served, x.Genuine setting c)
    (hnone : Serves setting c database .needsDecryption
      (trips.flatMap Move.served ++ [.engine .nextDecryptor (.ok none)]) (k (some ())))
    (hsome : ∀ trip, (∀ x ∈ (trips ++ [trip]).flatMap Move.served, x.Genuine setting c) →
      Serves setting c database .needsDecryption ((trips ++ [trip]).flatMap Move.served) (k none)) :
    Serves setting c database .needsDecryption (trips.flatMap Move.served) (c.decryptNext >>= k) := by
  unfold decryptNext
  simp only [bind_assoc]
  apply serves_ask
  intro answer
  have hasked := genuine_append hmade (genuine_engine .nextDecryptor answer)
  refine serves_orFail (fun e he => by subst he; rfl) (.decryption trips) rfl hasked ?_
  intro next hok
  subst hok
  cases next with
  | none =>
    simp only [pure_bind]
    exact hnone
  | some request =>
    simp only [bind_assoc, pure_bind]
    -- the round as it would be if this round trip were the last and made no call
    have hround : Round c database .needsDecryption
        (trips.flatMap Move.served ++ [.engine .nextDecryptor (.ok (some request))] ++
          .decrypt request [] (.done ()) ::
            [.engine .nextDecryptor (.ok none), .engine .completeDecryptors (.ok ())]) none := by
      have htrips : Round c database .needsDecryption _ none := .decryption (trips ++ [(request, [])])
      rwa [flatMap_served_snoc, List.append_assoc _ [_] [_, _]] at htrips
    refine serves_decrypt hround (fun _ _ => rfl) hasked fun t ht => ?_
    have hserved := hsome (request, t)
    rw [flatMap_served_snoc] at hserved
    exact hserved (genuine_append hasked ht)

/-- The decryptors that are left, after those already served. -/
theorem serves_decryptors (n : Nat) (trips : List (KeyRequest × List Event))
    (hlength : trips.length + n = setting.fuel)
    (hmade : ∀ x ∈ trips.flatMap Move.served, x.Genuine setting c) :
    Serves setting c database .needsDecryption (trips.flatMap Move.served) (do
      rounds c.decryptNext n
      ask .completeDecryptors >>= orFail .engine
      pure none) := by
  induction n generalizing trips with
  | zero =>
    intro scene
    show Served setting c database .needsDecryption (calls (trips.flatMap Move.served) ++ []) .unfinished
    rw [List.append_nil]
    exact .spent hlength hmade
  | succ n ih =>
    unfold rounds
    simp only [bind_assoc]
    refine serves_decryptNext trips hmade ?_ ?_
    · simp only [pure_bind]
      apply serves_ask
      intro completed
      have hall := genuine_append (genuine_append hmade (genuine_engine .nextDecryptor (.ok none)))
        (genuine_engine .completeDecryptors completed)
      have hround : Round c database .needsDecryption
          (trips.flatMap Move.served ++ [.engine .nextDecryptor (.ok none)] ++
            [.engine .completeDecryptors (.ok ())]) none := by
        rw [List.append_assoc]
        exact .decryption trips
      refine serves_orFail (fun e he => by subst he; rfl) hround rfl hall ?_
      intro _ hok
      subst hok
      exact serves_pure hround hall
    · -- one more decryptor is served, with one round of the loop less
      intro trip hserved
      have hless : (trips ++ [trip]).length + n = setting.fuel := by
        rw [List.length_append, List.length_singleton]
        omega
      have hrest := ih (trips ++ [trip]) hless hserved
      simpa only [bind_assoc] using hrest

theorem serves_decryptKeys (setting : Setting σ) (c : Client) (database : Option String) :
    Serves setting c database .needsDecryption [] (do c.decryptKeys; pure none) := by
  unfold decryptKeys
  simp only [bind_assoc]
  have hall : Serves setting c database .needsDecryption ([].flatMap Move.served) _ :=
    serves_decryptors setting.fuel [] (Nat.zero_add _) (List.forall_mem_nil _)
  simp only [bind_assoc] at hall
  exact hall

theorem serves_finish (setting : Setting σ) (c : Client) (database : Option String) :
    Serves setting c database .ready [] (some <$> (ask .finish >>= orFail .engine)) := by
  rw [map_eq_pure_bind, bind_assoc]
  apply serves_ask
  intro finished
  refine serves_orFail (fun e he => by subst he; rfl) (.ready []) rfl (by simp) ?_
  intro document hok
  subst hok
  exact serves_pure (.ready document) (by simp)

/-- A round of the loop: the phase cannot be read, or it is read and served. -/
inductive Turned (setting : Setting σ) (c : Client) (database : Option String) :
    List Event → Ending ClientError (Option Document) → Prop where
  | unread (e : EngineError) : Turned setting c database [.engine .phase (.error e)] (.failed (.engine e))
  | served {phase : Phase} {t : List Event} {ending : Ending ClientError (Option Document)}
      (h : Served setting c database phase t ending) :
      Turned setting c database (.engine .phase (.ok phase) :: t) ending

theorem Serves.turned {p : Action σ ClientError (Option Document)}
    (h : Serves setting c database phase [] p) :
    Yields setting p fun t ending => Turned setting c database (.engine .phase (.ok phase) :: t) ending :=
  h.mono fun _ _ ht => .served ht

theorem yields_round (c : Client) (database : Option String) :
    Yields setting (c.round database) (Turned setting c database) := by
  unfold round
  simp only [bind_assoc]
  apply yields_ask
  intro answer
  cases answer with
  | error e => exact yields_fail (.unread e)
  | ok phase =>
    cases phase with
    | needsCollectionInfo => exact (serves_provideCollectionInfo setting c database).turned
    | needsMarkings => exact (serves_provideMarkings setting c database).turned
    | needsCredentials => exact (serves_provideCredentials setting c database).turned
    | needsKeys => exact (serves_provideKeys setting c database).turned
    | needsDecryption => exact (serves_decryptKeys setting c database).turned
    | ready => exact (serves_finish setting c database).turned
    | done => exact (serves_pure .done (List.forall_mem_nil _)).turned
    | unrecognized code => exact yields_fail (.served (.unknown code))

theorem yields_drive (c : Client) (database : Option String) :
    Yields setting (c.drive database) (Protocol setting c database setting.fuel) := by
  refine yields_rounds (yields_round c database) .spent ?_ ?_ ?_ setting.fuel
  · intro n t u ending ht hu
    cases ht with
    | served h => exact .next h hu
  · intro n t document ht
    cases ht with
    | served h => exact .last h
  · intro n t stop ht
    cases stop with
    | failed e =>
      cases ht with
      | unread e => exact .unread e
      | served h => exact .stopped h
    | expired =>
      cases ht with
      | served h => exact .stopped h
    | unfinished =>
      cases ht with
      | served h => exact .stopped h

end Client

end FieldSeal
