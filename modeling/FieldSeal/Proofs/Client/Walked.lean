import FieldSeal.Proofs.Client.Concluding
import FieldSeal.Proofs.Client.Scripted

/-!
What decides the outcome of driving a context that walks through a list of phases: the first phase at which a call
fails, or which is no phase to be served.
-/

namespace FieldSeal

/-- The phases that are read, in their order. -/
def Trace.phases (t : List Event) : List Phase :=
  t.filterMap Event.phase?

namespace Client

open FieldSeal.Action FieldSeal.Trace

variable {σ ω : Type} {setting : Setting σ} {c : Client} {database : Option String} {phase : Phase}
  {phases : List Phase} {t : List Event} {ending : Ending ClientError Document}

/-- The calls while a context walks through phases, up to the phase that decides the outcome. Past the last of the
phases the context is done. -/
inductive Walked (setting : Setting σ) (c : Client) (database : Option String) :
    List Phase → List Event → Ending ClientError Document → Prop where
  | passed {phase : Phase} {phases : List Phase} {moves : List Move} {t : List Event}
      {ending : Ending ClientError Document} (hround : Round c database phase moves none)
      (hgenuine : ∀ move ∈ moves, move.Genuine setting c) (hrest : Walked setting c database phases t ending) :
      Walked setting c database (phase :: phases) (.engine .phase (.ok phase) :: (calls moves ++ t)) ending
  | unread {phases : List Phase} (e : EngineError) :
      Walked setting c database phases [.engine .phase (.error e)] (.failed (.engine e))
  | failed {phase : Phase} {phases : List Phase} {before rest : List Move} {move other : Move}
      {result : Option Document} {error : ClientError} (hphase : phase = phases.headD .done)
      (hround : Round c database phase (before ++ other :: rest) result) (halike : other.Alike move)
      (hstop : move.stop? = some (.failed error)) (hgenuine : ∀ x ∈ before ++ [move], x.Genuine setting c) :
      Walked setting c database phases (.engine .phase (.ok phase) :: calls (before ++ [move])) (.failed error)
  | refused {phase : Phase} {phases : List Phase} {missing : String} {error : ClientError}
      (hphase : phase = phases.headD .done) (hneeds : requirement phase = some missing)
      (h : c.autoDatabase database missing = .error error) :
      Walked setting c database phases [.engine .phase (.ok phase)] (.failed error)
  | ready {phases : List Phase} (document : Document) :
      Walked setting c database (.ready :: phases) [.engine .phase (.ok .ready), .engine .finish (.ok document)]
        (.done document)
  | done {phases : List Phase} (hphase : phases.headD .done = .done) :
      Walked setting c database phases [.engine .phase (.ok .done)] (.done [])
  | unrecognized {phases : List Phase} (code : Int) :
      Walked setting c database (.unrecognized code :: phases) [.engine .phase (.ok (.unrecognized code))]
        (.failed (.unsupportedPhase (.unrecognized code)))

theorem exists_cons_of_headD (hphase : phase = phases.headD .done) (hne : phase ≠ .done) :
    ∃ rest, phases = phase :: rest := by
  cases phases with
  | nil => exact absurd hphase hne
  | cons first rest => exact ⟨rest, by rw [hphase]; rfl⟩

/-- A round that fails decides the outcome. -/
theorem Served.walked_of_failed {error : ClientError} (h : Served setting c database phase t (.failed error))
    (hphase : phase = phases.headD .done) :
    Walked setting c database phases (.engine .phase (.ok phase) :: t) (.failed error) := by
  generalize hfailed : Ending.failed error = final at h
  cases h with
  | complete hround hgenuine => cases hfailed
  | @interrupted _ before rest move other result stop hround halike hstop hgenuine =>
    obtain rfl : stop = .failed error := Ending.stop_inj hfailed.symm
    exact .failed hphase hround halike hstop hgenuine
  | refused hneeds h =>
    cases hfailed
    exact .refused hphase hneeds h
  | unknown code =>
    cases hfailed
    obtain ⟨rest, rfl⟩ := exists_cons_of_headD hphase nofun
    exact .unrecognized code
  | spent hlength hgenuine => cases hfailed

/-- A round with a document decides the outcome. -/
theorem Served.walked_of_document {document : Document} (h : Served setting c database phase t (.done (some document)))
    (hphase : phase = phases.headD .done) :
    Walked setting c database phases (.engine .phase (.ok phase) :: t) (.done document) := by
  obtain ⟨moves, hround, rfl, -⟩ := h.of_done
  cases hround with
  | ready =>
    obtain ⟨rest, rfl⟩ := exists_cons_of_headD hphase nofun
    exact .ready document
  | done => exact .done hphase.symm

/-- By induction on the protocol: each round that goes on passes the phase that is read, and it was the first of
those left. -/
theorem Protocol.walked [Preorder ω] {world : World σ} {left : σ → List Phase} {pending : σ → ω} {n : Nat}
    (h : Protocol setting c database n t ending) (hwalks : Walks world left pending) {first last : Scene σ}
    (hleads : Leads world first t last) (hends : ∃ outcome, ending = .ofExcept outcome) :
    Walked setting c database (left first.state) t ending := by
  induction h generalizing first with
  | spent =>
    obtain ⟨outcome, hending⟩ := hends
    cases outcome <;> cases hending
  | unread e => exact .unread e
  | next hserved hrest ih =>
    obtain ⟨moves, hround, rfl, hgenuine⟩ := hserved.of_done
    cases hleads with
    | cons hphase hlater =>
      obtain ⟨mid, hround', hrest'⟩ := hlater.split
      rw [hround.left_eq hgenuine hwalks hphase hround']
      exact .passed hround hgenuine (ih hrest' hends)
  | last hserved =>
    cases hleads with
    | cons hphase hlater => exact hserved.walked_of_document (hwalks.phase_eq hphase).1
  | @stopped n phase t stop hserved =>
    obtain ⟨error, rfl⟩ : ∃ error, stop = .failed error := by
      obtain ⟨outcome, hending⟩ := hends
      cases stop <;> cases outcome <;> cases hending
      exact ⟨_, rfl⟩
    cases hleads with
    | cons hphase hlater => exact hserved.walked_of_failed (hwalks.phase_eq hphase).1

theorem Move.Alike.isService_eq {move other : Move} (h : other.Alike move) : other.isService = move.isService := by
  cases other with
  | engine call answer =>
    cases move with
    | engine call' answer' =>
      obtain rfl : call = call' := h
      cases call <;> rfl
    | _ => cases h
  | _ => cases move <;> first | rfl | cases h

/-- Of the calls of a round that does not succeed, too, only `finish` is no service of the phase. -/
theorem Round.interrupted_isService {before rest : List Move} {move other : Move} {result : Option Document}
    (h : Round c database phase (before ++ other :: rest) result) (halike : other.Alike move)
    (hgenuine : ∀ x ∈ before ++ [move], x.Genuine setting c) :
    (∀ e ∈ calls (before ++ [move]), e.isService = true) ∨
      phase = .ready ∧ ∃ answer, calls (before ++ [move]) = [.engine .finish answer] := by
  cases result with
  | none =>
    refine .inl (isService_calls hgenuine (List.forall_mem_append.2 ⟨fun x hx => ?_, ?_⟩))
    · exact h.isService x (List.mem_append_left _ hx)
    · rw [List.forall_mem_singleton, ← halike.isService_eq]
      exact h.isService other (by simp)
  | some document =>
    right
    generalize hmoves : before ++ other :: rest = moves at h
    cases h with
    | ready =>
      cases before with
      | cons x before => simp at hmoves
      | nil =>
        obtain ⟨rfl, rfl⟩ := List.cons.inj hmoves
        cases move with
        | engine call answer =>
          obtain rfl : EngineCall.finish = call := halike
          exact ⟨rfl, answer, rfl⟩
        | _ => cases halike
    | done => simp at hmoves

theorem phases_of_isService (ht : ∀ e ∈ t, e.isService = true) : Trace.phases t = [] :=
  List.filterMap_eq_nil_iff.2 fun e he => Event.phase?_of_isService (ht e he)

theorem singleton_prefix_of_headD (hphase : phase = phases.headD .done) : [phase] <+: phases ++ [.done] := by
  cases phases with
  | nil =>
    rw [hphase]
    exact List.prefix_refl _
  | cons first rest =>
    rw [hphase]
    exact ⟨rest ++ [.done], rfl⟩

namespace Walked

theorem reads (h : Walked setting c database phases t ending) : Trace.phases t <+: phases ++ [.done] := by
  induction h with
  | @passed phase phases moves t ending hround hgenuine hrest ih =>
    have hnone := phases_of_isService (isService_calls hgenuine hround.isService)
    have hphases : Trace.phases (.engine .phase (.ok phase) :: (calls moves ++ t)) = phase :: Trace.phases t := by
      show phase :: Trace.phases (calls moves ++ t) = _
      rw [Trace.phases, List.filterMap_append]
      exact congrArg (phase :: · ++ Trace.phases t) hnone
    rw [hphases]
    exact (List.prefix_cons_inj phase).2 ih
  | unread e => exact List.nil_prefix
  | @failed phase phases before rest move other result error hphase hround halike hstop hgenuine =>
    have hnone : Trace.phases (calls (before ++ [move])) = [] := by
      rcases hround.interrupted_isService halike hgenuine with hservice | ⟨-, answer, hcalls⟩
      · exact phases_of_isService hservice
      · rw [hcalls]
        rfl
    have hphases : Trace.phases (.engine .phase (.ok phase) :: calls (before ++ [move])) = [phase] :=
      congrArg (List.cons phase) hnone
    rw [hphases]
    exact singleton_prefix_of_headD hphase
  | refused hphase hneeds h => exact singleton_prefix_of_headD hphase
  | ready document => exact singleton_prefix_of_headD rfl
  | done hphase => exact singleton_prefix_of_headD hphase.symm
  | unrecognized code => exact singleton_prefix_of_headD rfl

/-- The context is finished by the last call, if at all, and only where it is ready. -/
theorem finish (h : Walked setting c database phases t ending) {answer : Except EngineError Document}
    (hmem : .engine .finish answer ∈ t) :
    ∃ before, t = before ++ [.engine .phase (.ok .ready), .engine .finish answer] := by
  induction h with
  | @passed phase phases moves t ending hround hgenuine hrest ih =>
    rcases List.mem_cons.1 hmem with hfirst | hlater
    · cases hfirst
    rcases List.mem_append.1 hlater with hserving | hlater
    · cases isService_calls hgenuine hround.isService _ hserving
    · obtain ⟨before, rfl⟩ := ih hlater
      exact ⟨.engine .phase (.ok phase) :: (calls moves ++ before), by simp⟩
  | @failed phase phases before rest move other result error hphase hround halike hstop hgenuine =>
    rcases List.mem_cons.1 hmem with hfirst | hlater
    · cases hfirst
    rcases hround.interrupted_isService halike hgenuine with hservice | ⟨rfl, answer', hcalls⟩
    · cases hservice _ hlater
    · rw [hcalls] at hlater ⊢
      rw [List.mem_singleton.1 hlater]
      exact ⟨[], rfl⟩
  | ready document =>
    rcases List.mem_cons.1 hmem with hfirst | hlater
    · cases hfirst
    · rw [List.mem_singleton.1 hlater]
      exact ⟨[], rfl⟩
  | _ => cases List.mem_singleton.1 hmem

end Walked

/-- What becomes of a context that walks through phases when it is driven. -/
structure Visited (setting : Setting σ) (c : Client) (database : Option String) (phases : List Phase) (t : List Event)
    (ending : Ending ClientError Document) : Prop where
  walked : Walked setting c database phases t ending
  reads : Trace.phases t <+: phases ++ [.done]
  finish : ∀ answer, .engine .finish answer ∈ t →
    ∃ before, t = before ++ [.engine .phase (.ok .ready), .engine .finish answer]
  ends : ∃ outcome, ending = .ofExcept outcome

/-- Where a context walks through finitely many phases and hands out finitely many decryptors, and whoever is called
answers, it is driven to an end that comes for everyone who waits long enough. -/
theorem drive_visits [Preorder ω] [WellFoundedLT ω] {world : World σ} {left : σ → List Phase} {pending : σ → ω}
    (hwalks : Walks world left pending) (hanswers : world.Answers) (c : Client) (database : Option String)
    (scene : Scene σ) : ∃ run bound, ∀ deadline fuel, bound ≤ deadline → bound ≤ fuel →
      c.drive database ⟨world, deadline, fuel⟩ scene = run ∧
      Visited ⟨world, deadline, fuel⟩ c database (left scene.state) run.trace run.ending := by
  obtain ⟨run, hsettles⟩ := concludes_drive hwalks hanswers c database scene
  obtain ⟨bound, hbound⟩ := hsettles.enough
  refine ⟨run, bound, fun deadline fuel hdeadline hfuel => ?_⟩
  have hrun := hbound deadline fuel hdeadline hfuel
  have hprotocol : Protocol ⟨world, deadline, fuel⟩ c database fuel run.trace run.ending :=
    hrun ▸ yields_drive c database scene
  have hwalked := hprotocol.walked hwalks hsettles.leads hsettles.ends
  exact ⟨hrun, hwalked, hwalked.reads, fun _ => hwalked.finish, hsettles.ends⟩

/-- A context with the phases and decryptors that it has left. -/
structure Itinerary where
  phases : List Phase
  decryptors : Nat

/-- An answer to every call on a service. -/
def agreeable : (call : ServiceCall) → call.Answer
  | .collectionInfo _ _ => .ok none
  | .mark _ _ => .ok []
  | .findKeys _ => .ok []
  | .supply _ => .ok none
  | .decryptKey _ => .ok ()
  | .connect _ _ => .ok ()
  | .write bytes => .ok (Fin.last bytes.length)
  | .flush => .ok ()
  | .read _ => .ok ⟨[], Nat.zero_le _⟩
  | .shutdown => .ok ()
  | .closeMarker => .ok ()
  | .closeInternalClient => .ok ()
  | .closeKms => .ok ()

/-- A world with a context that walks through its phases, and where every call succeeds. -/
def itinerant : World Itinerary where
  engine
    | .createContext _, s => (.ok (), s)
    | .phase, s => (.ok (s.phases.headD .done), s)
    | .operation, s => (.ok [], s)
    | .addResult _, s => (.ok (), s)
    | .completeOperation, s => (.ok (), { s with phases := advance s.phases (.engine .completeOperation (.ok ())) })
    | .provideCredentials credentials, s =>
      (.ok (), { s with phases := advance s.phases (.engine (.provideCredentials credentials) (.ok ())) })
    | .nextDecryptor, ⟨phases, 0⟩ => (.ok none, ⟨phases, 0⟩)
    | .nextDecryptor, ⟨phases, n + 1⟩ => (.ok (some scriptedRequest), ⟨phases, n⟩)
    | .bytesNeeded, s => (0, s)
    | .feed _, s => (.ok (), s)
    | .completeDecryptors, s => (.ok (), { s with phases := advance s.phases (.engine .completeDecryptors (.ok ())) })
    | .finish, s => (.ok [], s)
    | .release, s => ((), s)
    | .close, s => (.ok (), s)
  service call _ s := ⟨s, some (1, agreeable call, s)⟩

theorem itinerant_walks : Walks itinerant Itinerary.phases Itinerary.decryptors where
  reads state phase h := (Except.ok.inj h).symm
  moves m h hcontext hfinish := by
    cases h with
    | asked call scene =>
      obtain ⟨now, phases, decryptors⟩ := scene
      cases call with
      | nextDecryptor => cases decryptors <;> exact (advance_of_not_concernsPhase rfl phases).symm
      | phase => exact (advance_phase phases _).symm
      | completeOperation => rfl
      | provideCredentials credentials => rfl
      | completeDecryptors => rfl
      | finish => cases hfinish
      | operation => exact (advance_of_not_concernsPhase rfl phases).symm
      | addResult result => exact (advance_of_not_concernsPhase rfl phases).symm
      | bytesNeeded => exact (advance_of_not_concernsPhase rfl phases).symm
      | feed bytes => exact (advance_of_not_concernsPhase rfl phases).symm
      | createContext request => cases hcontext
      | release => cases hcontext
      | close => cases hcontext
    | answered houtcome =>
      cases houtcome
      exact (advance_of_not_concernsPhase rfl _).symm
    | cut h => exact (advance_of_not_concernsPhase rfl _).symm
    | warned text scene => cases hcontext
  hands m h hhandout := by
    cases h with
    | asked call scene =>
      obtain ⟨now, phases, decryptors⟩ := scene
      cases call with
      | nextDecryptor =>
        cases decryptors with
        | zero => cases hhandout
        | succ n => exact Nat.lt_succ_self n
      | _ => cases hhandout
    | _ => cases hhandout
  holds m h hroundTrip := by
    cases h with
    | asked call scene =>
      cases call with
      | bytesNeeded => exact Nat.le_refl _
      | feed bytes => exact Nat.le_refl _
      | _ => cases hroundTrip
    | answered houtcome =>
      cases houtcome
      exact Nat.le_refl _
    | cut h => exact Nat.le_refl _
    | warned text scene => cases hroundTrip

theorem itinerant_answers : itinerant.Answers :=
  fun _ _ _ _ => nofun

theorem drive_visits_itinerant : ∃ run bound, ∀ deadline fuel, bound ≤ deadline → bound ≤ fuel →
    scriptedClient.drive none ⟨itinerant, deadline, fuel⟩
      ⟨0, ⟨[.needsKeys, .needsDecryption, .needsKeys, .ready], 2⟩⟩ = run ∧
    Visited ⟨itinerant, deadline, fuel⟩ scriptedClient none [.needsKeys, .needsDecryption, .needsKeys, .ready]
      run.trace run.ending :=
  drive_visits itinerant_walks itinerant_answers scriptedClient none
    ⟨0, ⟨[.needsKeys, .needsDecryption, .needsKeys, .ready], 2⟩⟩

end Client

end FieldSeal
