import FieldSeal.Proofs.Client.Performing
import FieldSeal.Proofs.Client.Trips
import FieldSeal.Proofs.Kms.Orderly

/-!
Decryptors of clients whose key service is a stream service. Each decryptor has a round trip of its own; what holds of
decryptors and connections is read off the round trips of the context.
-/

namespace FieldSeal

open FieldSeal.Action FieldSeal.Trace

namespace Client

variable {σ : Type} {setting : Setting σ} {scene first last : Scene σ} {c : Client} {service : StreamService}
  {t u : List Event} {trips : List (Trip σ)} {stop? : Option (Stop ClientError)}

theorem decryptKey_of_stream (hservice : c.keyService = .stream service) (request : KeyRequest) :
    (c.decryptKey request : Action σ KmsError Unit) = service.decryptKey request := by
  rw [decryptKey, hservice]

theorem Trip.Runs.roundTrip {trip : Trip σ} (hservice : c.keyService = .stream service)
    (h : trip.Runs setting c last) : service.RoundTrip trip.request trip.calls trip.outcome := by
  have hrun := h.hasRun
  rw [decryptKey_of_stream hservice] at hrun
  exact (service.yields_decryptKey trip.request).of_hasRun hrun

/-- A tail that is nothing to decryptors leaves the round trips orderly. -/
theorem Attended.orderly (h : Attended setting c first t trips stop? last) (hservice : c.keyService = .stream service)
    {tail : List Event} (haside : ∀ e ∈ tail, e.isAside = true)
    (hincomplete : ∀ answer, .engine .completeDecryptors answer ∉ tail) : Orderly (t ++ tail) := by
  induction h with
  | nil scene hown => exact orderly_of_asides haside
  | aside h he ht ih =>
    rw [List.cons_append]
    exact ih.prepend (settled_aside he)
  | trip h hruns hdone ht ih =>
    have htrip := hruns.roundTrip hservice
    rw [hdone] at htrip
    rw [List.cons_append, List.append_assoc]
    exact ih.prepend htrip.settled
  | stopped stop h hruns hstop =>
    exact (hruns.roundTrip hservice).orderly (StreamService.quiet_of_asides haside hincomplete)
      (StreamService.fed_of_asides haside)

/-- What a decryptor needs depends only on what it was fed: the `k`-th says `report k`. -/
def Reports (report : Nat → List Bytes → Nat) (t : List Event) : Prop :=
  ∀ before needed after, t = before ++ .engine .bytesNeeded needed :: after →
    needed = report (handouts before) (fedTo (handouts before) before)

/-- A decryptor that is handed out is served by a round trip, from the very scene in which it is. However the round
trip stops, nothing is left to be done but to release the context, and the operation ends with it. -/
def Tripped {α : Type} (setting : Setting σ) (scene : Scene σ) (service : StreamService) (request : KeyRequest)
    (before after : List Event) (ending : Ending ClientError α) : Prop :=
  ∃ (trip : Trip σ) (later : Scene σ) (rest : List Event), trip.request = request ∧
    Leads setting.world scene (before ++ [trip.handout]) trip.scene ∧
    service.decryptKey request setting trip.scene = ⟨trip.outcome, trip.calls, later⟩ ∧ after = trip.calls ++ rest ∧
      ∀ stop : Stop KmsError, trip.outcome = stop.ending → rest = released trip.outcome ∧
        ending = (stop.ending : Ending KmsError α).mapError fun e => .encryption (.kms e)

/-- How the decryptors of an operation are served over streams. -/
structure ServedOverStreams {α : Type} (setting : Setting σ) (scene : Scene σ) (service : StreamService)
    (t : List Event) (ending : Ending ClientError α) : Prop where
  satisfied : ∀ report, Reports report t → ∀ before answer after,
    t = before ++ .engine .completeDecryptors answer :: after →
      ∀ k, 0 < k → k ≤ handouts before → report k (fedTo k before) = 0
  step : ∀ before after, t = before ++ after →
    connects before ≤ handouts before ∧ handouts before ≤ connects before + 1
  own : ∀ k, fedTo k t = readFrom k t
  apart : ∀ before first middle second after, t = before ++ first :: (middle ++ second :: after) →
    first.isConnect = true → second.isConnect = true →
      ∃ answer, .service .shutdown (some answer) ∈ middle
  tripped : ∀ before request after, t = before ++ .engine .nextDecryptor (.ok (some request)) :: after →
    Tripped setting scene service request before after ending

theorem satisfied_of_orderly {report : Nat → List Bytes → Nat} (h : Orderly t) (hreport : Reports report t)
    {before after : List Event} {answer : Except EngineError Unit}
    (ht : t = before ++ .engine .completeDecryptors answer :: after) {k : Nat} (hpos : 0 < k)
    (hle : k ≤ handouts before) : report k (fedTo k before) = 0 := by
  obtain ⟨earlier, later, hbefore, hcount, hfed⟩ := h.complete before answer after ht k hpos hle
  have hsplit : t = earlier ++ .engine .bytesNeeded 0 :: (later ++ .engine .completeDecryptors answer :: after) := by
    rw [ht, hbefore, List.append_assoc]
    rfl
  have hzero := hreport earlier 0 _ hsplit
  rw [hcount, hfed] at hzero
  exact hzero.symm

theorem servedOverStreams_of_orderly {α : Type} {ending : Ending ClientError α} (h : Orderly t)
    (htripped : ∀ before request after, t = before ++ .engine .nextDecryptor (.ok (some request)) :: after →
      Tripped setting scene service request before after ending) :
    ServedOverStreams setting scene service t ending where
  satisfied _ hreport _ _ _ ht _ hpos hle := satisfied_of_orderly h hreport ht hpos hle
  step := h.step
  own := h.own
  apart := h.apart
  tripped := htripped

theorem ne_handout_of_asides {before after : List Event} {request : KeyRequest} (ht : ∀ e ∈ t, e.isAside = true) :
    t ≠ before ++ .engine .nextDecryptor (.ok (some request)) :: after := by
  intro hsplit
  have hhandout := ht (.engine .nextDecryptor (.ok (some request))) (by simp [hsplit])
  cases hhandout

theorem servedOverStreams_of_asides {α : Type} {ending : Ending ClientError α}
    (ht : ∀ e ∈ t, e.isAside = true) : ServedOverStreams setting scene service t ending :=
  servedOverStreams_of_orderly (orderly_of_asides ht) fun _ _ _ hsplit => absurd hsplit (ne_handout_of_asides ht)

theorem incomplete_released {α : Type} (ending : Ending ClientError α) (answer : Except EngineError Unit) :
    .engine .completeDecryptors answer ∉ released ending := by
  cases ending <;> simp [released]

/-- A handout among the calls of an execution is one among those on its context. -/
theorem Staged.tripped {request : Request} {run : Run σ ClientError Document}
    (h : Staged setting c request scene run) (op : Operation) (hservice : c.keyService = .stream service)
    {before after : List Event} {asked : KeyRequest}
    (hsplit : run.trace = before ++ .engine .nextDecryptor (.ok (some asked)) :: after) :
    Tripped setting scene service asked before after (op.conclude run.ending) := by
  cases h with
  | undriven hleads ht hown => exact absurd hsplit (ne_handout_of_asides ht)
  | @driven made late last t trips ending hmade hattended hreleased =>
    rcases cons_eq_split hsplit with ⟨-, he, -⟩ | ⟨later, rfl, hcalls⟩
    · cases he
    rcases append_eq_split hcalls with ⟨rest, ht, rfl⟩ | ⟨rest, hrelease, -⟩
    · obtain ⟨trip, final, rest', rfl, hruns, hleads, rfl, hstop⟩ := hattended.of_handout ht
      refine ⟨trip, final, rest' ++ released ending, rfl, .cons hmade hleads, ?_, List.append_assoc _ _ _, ?_⟩
      · rw [← decryptKey_of_stream hservice]
        exact hruns
      · intro stop houtcome
        obtain ⟨rfl, hstopped⟩ := hstop stop houtcome
        obtain rfl := Ending.eq_ending_of_stop? hstopped
        rw [houtcome, ← Ending.mapError_ending, op.conclude_tripped]
        cases stop <;> exact ⟨rfl, rfl⟩
    · exact absurd hrelease (ne_handout_of_asides isAside_of_mem_released)

theorem Staged.servedOverStreams {request : Request} {run : Run σ ClientError Document}
    (h : Staged setting c request scene run) (op : Operation) (hservice : c.keyService = .stream service) :
    ServedOverStreams setting scene service run.trace (op.conclude run.ending) := by
  refine servedOverStreams_of_orderly ?_ fun before asked after hsplit => h.tripped op hservice hsplit
  cases h with
  | undriven hleads ht hown => exact orderly_of_asides ht
  | @driven made late last t trips ending hmade hattended hreleased =>
    have hcalls := hattended.orderly hservice isAside_of_mem_released (incomplete_released ending)
    exact hcalls.prepend (settled_aside rfl)

theorem isAside_of_ofClosing {e : Event} (h : e.ofClosing = true) : e.isAside = true := by
  unfold Event.ofClosing at h
  split at h <;> first | rfl | cases h

/-- Whatever the connections do, the decryptors of an operation are served one after the other, each by a
connection of its own, and are completed only when none of them needs more; the first round trip that fails
ends the operation. -/
theorem perform_serves_keys (setting : Setting σ) (scene : Scene σ) (c : Client) (op : Operation)
    {service : StreamService} (hservice : c.keyService = .stream service) :
    ServedOverStreams setting scene service (c.perform op setting scene).trace
      (c.perform op setting scene).ending := by
  by_cases hop : op = .close
  · subst hop
    have hclosing : CallsOf Event.ofClosing (c.perform .close setting scene).trace _ := yields_close c scene
    exact servedOverStreams_of_asides fun e he => isAside_of_ofClosing (hclosing.only e he)
  by_cases hadmits : c.Admits op
  · obtain ⟨-, hvalid, hbypass⟩ := hadmits
    obtain ⟨request, hrequest⟩ := Operation.exists_request hop
    rw [perform_eq_execute hrequest hvalid hbypass]
    exact (execute_staged setting c request op.database scene).servedOverStreams op hservice
  · obtain ⟨ending, hperform, -⟩ := perform_of_not_admits setting scene hop hadmits
    rw [hperform]
    exact servedOverStreams_of_asides (List.forall_mem_nil _)

/-- A stream service for the scripted world. -/
def scriptedStream : StreamService where
  connectLimit := 5
  ioLimit := 5
  responseLimit := 4

def remoteRequest : KeyRequest :=
  ⟨"aws", "kms.test:443", [1]⟩

/-- The calls of a decryption for which a decryptor needs two bytes, and gets them in one read. -/
def streamedCalls : List Event :=
  [.engine (.createContext (.decryptResponse [])) (.ok ()), .engine .phase (.ok .needsDecryption),
    .engine .nextDecryptor (.ok (some remoteRequest)), .service (.connect "kms.test" 443) (some (.ok ())),
    .service (.write [1]) (some (.ok 1)), .service .flush (some (.ok ())), .engine .bytesNeeded 2,
    .service (.read 2) (some (.ok ⟨[0, 0], by simp⟩)), .engine (.feed [0, 0]) (.ok ()), .engine .bytesNeeded 0,
    .service .shutdown (some (.ok ())), .engine .nextDecryptor (.ok none), .engine .completeDecryptors (.ok ()),
    .engine .phase (.ok .ready), .engine .finish (.ok []), .engine .release ()]

theorem perform_serves_keys_scripted :
    Reports (fun _ chunks => 2 - chunks.flatten.length) streamedCalls ∧
      ServedOverStreams ⟨scripted, 20, 4⟩ ⟨0, ⟨[.needsDecryption, .ready], [remoteRequest], 2⟩⟩ scriptedStream
        streamedCalls (.done [] : Ending ClientError Document) := by
  have hreports : Reports (fun _ chunks => 2 - chunks.flatten.length) streamedCalls := by
    intro before needed after ht
    simp only [streamedCalls, List.cons_eq_append_iff, List.cons.injEq, Event.engine.injEq, reduceCtorEq,
      false_and, and_false, heq_eq_eq, true_and, List.nil_eq, List.append_eq_nil_iff, exists_const, or_self,
      or_false, false_or] at ht
    obtain ⟨_, rfl, _, rfl, _, rfl, _, rfl, _, rfl, _, rfl, hfirst | hsecond⟩ := ht
    · obtain ⟨rfl, rfl, -⟩ := hfirst
      rfl
    · obtain ⟨_, rfl, _, rfl, _, rfl, rfl, rfl, -⟩ := hsecond
      rfl
  have hrun := perform_serves_keys ⟨scripted, 20, 4⟩ ⟨0, ⟨[.needsDecryption, .ready], [remoteRequest], 2⟩⟩
    (.explicit (.stream scriptedStream) {}) (.decrypt []) rfl
  have htrace : ((explicit (.stream scriptedStream) {}).perform (.decrypt []) ⟨scripted, 20, 4⟩
      ⟨0, ⟨[.needsDecryption, .ready], [remoteRequest], 2⟩⟩).trace = streamedCalls := by
    with_unfolding_all rfl
  have hending : ((explicit (.stream scriptedStream) {}).perform (.decrypt []) ⟨scripted, 20, 4⟩
      ⟨0, ⟨[.needsDecryption, .ready], [remoteRequest], 2⟩⟩).ending = .done [] := by
    with_unfolding_all rfl
  rw [htrace, hending] at hrun
  exact ⟨hreports, hrun⟩

end Client

end FieldSeal
