import FieldSeal.Proofs.Client.Execution

/-!
The course of a context, call by call, and why it ends. A few answers settle the end; all others leave it open. A round
trip is one part of the course, whatever calls it makes.
-/

namespace FieldSeal

open FieldSeal.Action FieldSeal.Trace

namespace Event

/-- The engine refuses a call, other than one of a round trip. -/
def rejection? : Event → Option EngineError
  | .engine (.createContext _) (.error e) | .engine .phase (.error e) | .engine .operation (.error e)
  | .engine (.addResult _) (.error e) | .engine .completeOperation (.error e)
  | .engine (.provideCredentials _) (.error e) | .engine .nextDecryptor (.error e)
  | .engine .completeDecryptors (.error e) | .engine .finish (.error e) => some e
  | _ => none

/-- What an answer settles: the document a context ends with, or the failure that is raised. Whether an answer in a
fetch or a round trip settles anything depends on more than the answer. -/
def verdict? : Event → Option (Except ClientError Document)
  | .engine .finish (.ok document) => some (.ok document)
  | .engine .phase (.ok .done) => some (.ok [])
  | .engine .phase (.ok (.unrecognized code)) => some (.error (.unsupportedPhase (.unrecognized code)))
  | .service (.collectionInfo _ _) (some (.error cause)) => some (.error (.collectionInfo cause))
  | .service (.mark _ _) (some (.error cause)) => some (.error (.encryption (.marking cause)))
  | .service (.findKeys _) (some (.error cause)) => some (.error (.keyVault cause))
  | e => e.rejection?.map fun e => .error (.engine e)

theorem verdict?_of_rejection? {x : Event} {e : EngineError} (h : x.rejection? = some e) :
    x.verdict? = some (.error (.engine e)) := by
  unfold rejection? at h
  split at h <;> cases h <;> rfl

/-- An event of a course that leaves the end open and has nothing to do with decryptors. -/
def isPassing (e : Event) : Bool :=
  e.isAside && e.verdict?.isNone

theorem isPassing_of_ofSupplier {e : Event} (h : e.ofSupplier = true) : e.isPassing = true := by
  unfold ofSupplier at h
  split at h
  · rfl
  · cases h

theorem verdict?_of_isPassing {e : Event} (h : e.isPassing = true) : e.verdict? = none :=
  Option.isNone_iff_eq_none.1 (Bool.and_eq_true_iff.1 h).2

theorem verdict?_of_ofRoundTrip {e : Event} (h : e.ofRoundTrip = true) : e.verdict? = none := by
  unfold ofRoundTrip onConnection at h
  split at h
  · rfl
  · rfl
  · rfl
  · split at h <;> first | rfl | cases h

theorem verdict?_cut (call : ServiceCall) : (Event.service call none).verdict? = none := by
  cases call <;> rfl

end Event

namespace Client

variable {σ : Type} {setting : Setting σ} {c : Client} {database : Option String} {phase : Phase}
  {t u : List Event} {ending : Ending ClientError Document}

/-- How the calls on a context lead to its ending. A call goes by, or it settles the ending and is the last; a round
trip that stops is the last as well. -/
inductive Course (setting : Setting σ) (c : Client) (database : Option String) :
    List Event → Ending ClientError Document → Prop where
  | spent : Course setting c database [] .unfinished
  | ended {e : Event} {document : Document} (h : e.verdict? = some (.ok document)) :
      Course setting c database [e] (.done document)
  | failed {e : Event} {f : ClientError} (h : e.verdict? = some (.error f)) :
      Course setting c database [e] (.failed f)
  | cut {call : ServiceCall} (haside : (Event.service call none).isAside = true) :
      Course setting c database [.service call none] .expired
  | refused {phase : Phase} {missing : String} {e : ClientError} (hneeds : requirement phase = some missing)
      (h : c.autoDatabase database missing = .error e) :
      Course setting c database [.engine .phase (.ok phase)] (.failed e)
  | unsupplied {provider supplier : String} (cause : Fault)
      (hsupplier : (provider, supplier) ∈ c.credentials.suppliers.entries) :
      Course setting c database [.service (.supply supplier) (some (.error cause))]
        (.failed (.credentials provider cause))
  | next {e : Event} {t : List Event} {ending : Ending ClientError Document} (he : e.isPassing = true)
      (ht : Course setting c database t ending) : Course setting c database (e :: t) ending
  | trip {request : KeyRequest} {trip t : List Event} {ending : Ending ClientError Document}
      (hrun : HasRun setting (c.decryptKey request) trip (.done ()))
      (ht : Course setting c database t ending) :
      Course setting c database (.engine .nextDecryptor (.ok (some request)) :: (trip ++ t)) ending
  | stopped {request : KeyRequest} {trip : List Event} (stop : Stop KmsError)
      (hrun : HasRun setting (c.decryptKey request) trip stop.ending) :
      Course setting c database (.engine .nextDecryptor (.ok (some request)) :: trip)
        ((stop.ending : Ending KmsError Document).mapError fun e => .encryption (.kms e))

theorem course_append (ht : ∀ e ∈ t, e.isPassing = true) (hu : Course setting c database u ending) :
    Course setting c database (t ++ u) ending := by
  induction t with
  | nil => exact hu
  | cons e t ih =>
    obtain ⟨he, ht⟩ := List.forall_mem_cons.1 ht
    exact .next he (ih ht)

/-- A fetch that gives no document ends the course. -/
theorem yields_fetchFrom_course (order : List (String × String)) (doc : Document)
    (horder : ∀ entry ∈ order, entry ∈ c.credentials.suppliers.entries) :
    Yields setting (Credentials.fetchFrom order doc) fun t ending =>
      ∀ stop : Stop ClientError, ending = stop.ending → Course setting c database t stop.ending := by
  induction order generalizing doc with
  | nil => exact yields_pure fun stop hstop => by cases stop <;> cases hstop
  | cons entry rest ih =>
    obtain ⟨provider, supplier⟩ := entry
    obtain ⟨hentry, hrest⟩ := List.forall_mem_cons.1 horder
    unfold Credentials.fetchFrom
    by_cases hproperties : Credentials.hasProperties doc provider = true
    · rw [if_pos hproperties]
      exact ih doc hrest
    · rw [if_neg hproperties]
      refine yields_await ?_ ?_
      · intro stop hstop
        obtain rfl : stop = .expired := Ending.stop_inj hstop.symm
        exact .cut rfl
      · intro answer
        cases answer with
        | error cause =>
          refine yields_fail fun stop hstop => ?_
          obtain rfl : stop = .failed (.credentials provider cause) := Ending.stop_inj hstop.symm
          exact .unsupplied cause hentry
        | ok supplied =>
          -- the fetch goes on with the suppliers that are left
          cases supplied with
          | none => exact (ih doc hrest).mono fun t ending h stop hstop => .next rfl (h stop hstop)
          | some properties => exact (ih _ hrest).mono fun t ending h stop hstop => .next rfl (h stop hstop)

theorem course_of_fetch {stop : Stop ClientError} (hrun : HasRun setting c.credentials.fetch t stop.ending) :
    Course setting c database t stop.ending :=
  (yields_fetchFrom_course _ _ fun _ h => c.credentials.visited_perm.mem_iff.1 h).of_hasRun hrun stop rfl

namespace Move

variable {move other : Move} {stop : Stop ClientError}

/-- A move on the engine that stops the round hands out no decryptor. -/
theorem isAside_of_stop {call : EngineCall} {answer : call.Answer}
    (hstop : (Move.engine call answer).stop? = some stop) : (Move.engine call answer).isAside = true := by
  cases call with
  | nextDecryptor =>
    cases answer with
    | error e => rfl
    | ok handed => cases hstop
  | bytesNeeded => cases hstop
  | feed bytes => cases hstop
  | _ => rfl

theorem Alike.isAside (h : other.Alike move) (hother : other.isAside = true) (hstop : move.stop? = some stop) :
    move.isAside = true := by
  cases move with
  | engine call answer => exact isAside_of_stop hstop
  | service call answer =>
    cases other with
    | service call' answer' =>
      obtain rfl : call' = call := h
      cases call' <;> first | rfl | cases hother
    | _ => cases h
  | fetch calls ending => rfl
  | decrypt request calls ending =>
    cases other with
    | decrypt request' calls' ending' => cases hother
    | _ => cases h

/-- A move aside from decryptors that stops the round ends the course. -/
theorem course_of_stop (haside : move.isAside = true) (hstop : move.stop? = some stop)
    (hgenuine : move.Genuine setting c) : Course setting c database move.calls stop.ending := by
  unfold stop? at hstop
  split at hstop
  case h_11 =>
    cases hstop
    exact .cut haside
  case h_12 calls ending =>
    obtain rfl := Ending.eq_ending_of_stop? hstop
    exact course_of_fetch hgenuine.1
  case h_13 => cases haside
  case h_14 => cases hstop
  all_goals
    cases hstop
    exact .failed rfl

theorem course_of_decrypt {request : KeyRequest} {trip : List Event} {outcome : Ending KmsError Unit}
    (hstop : (Move.decrypt request trip outcome).stop? = some stop)
    (hgenuine : (Move.decrypt request trip outcome).Genuine setting c) :
    Course setting c database (.engine .nextDecryptor (.ok (some request)) :: trip) stop.ending := by
  cases outcome with
  | done value => cases hstop
  | failed e =>
    cases hstop
    exact .stopped (.failed e) hgenuine.1
  | expired =>
    cases hstop
    exact .stopped .expired hgenuine.1
  | unfinished =>
    cases hstop
    exact .stopped .unfinished hgenuine.1

/-- All calls of the move leave the end open. -/
def Passes (move : Move) : Prop :=
  ∀ e ∈ move.calls, e.isPassing = true

theorem passes_engine {call : EngineCall} {answer : call.Answer}
    (h : (Event.engine call answer).isPassing = true) : (Move.engine call answer).Passes :=
  List.forall_mem_singleton.2 h

theorem passes_service {call : ServiceCall} {answer : Option call.Answer}
    (h : (Event.service call answer).isPassing = true) : (Move.service call answer).Passes :=
  List.forall_mem_singleton.2 h

theorem passes_fetch {calls : List Event} {ending : Ending ClientError Document}
    (hgenuine : (Move.fetch calls ending).Genuine setting c) : (Move.fetch calls ending).Passes :=
  fun e he => Event.isPassing_of_ofSupplier (hgenuine.2.only e he)

end Move

/-- Outside of decryption, a complete round that is not the last leaves the end open. -/
theorem Round.passes {moves : List Move} {result : Option Document} (h : Round c database phase moves result)
    (hdecryption : phase ≠ .needsDecryption) (hready : phase ≠ .ready) :
    ∀ move ∈ moves, move.Genuine setting c → move.Passes := by
  have hadded : ∀ documents : List Document, ∀ move ∈ documents.map Move.added, move.Genuine setting c →
      move.Passes := by
    intro documents move hmove _
    obtain ⟨document, -, rfl⟩ := List.mem_map.1 hmove
    exact Move.passes_engine rfl
  cases h with
  | collectionInfo hauto filter info =>
    simp only [List.forall_mem_append, List.forall_mem_cons]
    exact ⟨⟨⟨fun _ => Move.passes_engine rfl, fun _ => Move.passes_service rfl, List.forall_mem_nil _⟩,
      hadded _⟩, fun _ => Move.passes_engine rfl, List.forall_mem_nil _⟩
  | markings hauto command marked =>
    simp only [List.forall_mem_cons]
    exact ⟨fun _ => Move.passes_engine rfl, fun _ => Move.passes_service rfl,
      fun _ => Move.passes_engine rfl, fun _ => Move.passes_engine rfl, List.forall_mem_nil _⟩
  | credentials fetched document =>
    simp only [List.forall_mem_cons]
    exact ⟨Move.passes_fetch, fun _ => Move.passes_engine rfl, List.forall_mem_nil _⟩
  | keys filter keys =>
    simp only [List.forall_mem_append, List.forall_mem_cons]
    exact ⟨⟨⟨fun _ => Move.passes_engine rfl, fun _ => Move.passes_service rfl, List.forall_mem_nil _⟩,
      hadded _⟩, fun _ => Move.passes_engine rfl, List.forall_mem_nil _⟩
  | decryption trips => exact absurd rfl hdecryption
  | ready document => exact absurd rfl hready
  | done => exact List.forall_mem_nil _

/-- Where a round has moves, or another round is to follow, reading the phase leaves the end open. -/
theorem Round.reads {moves : List Move} {result : Option Document} (h : Round c database phase moves result)
    (hgoes : moves ≠ [] ∨ result = none) : (Event.engine .phase (.ok phase)).isPassing = true := by
  cases h with
  | done => simp at hgoes
  | _ => rfl

theorem course_moves {moves : List Move} (hmoves : ∀ move ∈ moves, move.Passes)
    (hu : Course setting c database u ending) : Course setting c database (calls moves ++ u) ending := by
  refine course_append ?_ hu
  intro e he
  obtain ⟨move, hmove, he⟩ := List.mem_flatMap.1 he
  exact hmoves move hmove e he

theorem calls_served_cons (trip : KeyRequest × List Event) (moves : List Move) :
    calls (Move.served trip ++ moves) =
      .engine .nextDecryptor (.ok (some trip.1)) :: (trip.2 ++ calls moves) := rfl

theorem course_trips (trips : List (KeyRequest × List Event))
    (hgenuine : ∀ move ∈ trips.flatMap Move.served, move.Genuine setting c)
    (hu : Course setting c database u ending) :
    Course setting c database (calls (trips.flatMap Move.served) ++ u) ending := by
  induction trips with
  | nil => exact hu
  | cons trip trips ih =>
    rw [List.flatMap_cons] at hgenuine ⊢
    obtain ⟨htrip, htrips⟩ := List.forall_mem_append.1 hgenuine
    rw [calls_served_cons, List.cons_append, List.append_assoc]
    have hrun := (htrip (.decrypt trip.1 trip.2 (.done ())) (by simp [Move.served])).1
    exact .trip hrun (ih htrips)

theorem course_of_stop_alone {move other : Move} {stop : Stop ClientError} (hother : other.isAside = true)
    (halike : other.Alike move) (hstop : move.stop? = some stop) (hgenuine : move.Genuine setting c) :
    Course setting c database (calls [move]) stop.ending := by
  have hmove : Course setting c database move.calls stop.ending :=
    Move.course_of_stop (halike.isAside hother hstop) hstop hgenuine
  simpa [calls] using hmove

/-- The phase in which keys are decrypted, stopped at any of its moves. -/
theorem course_stop_decryption (trips : List (KeyRequest × List Event)) {before rest : List Move}
    {move other : Move} {stop : Stop ClientError}
    (hsplit : trips.flatMap Move.served ++
      [.engine .nextDecryptor (.ok none), .engine .completeDecryptors (.ok ())] = before ++ other :: rest)
    (halike : other.Alike move) (hstop : move.stop? = some stop)
    (hgenuine : ∀ x ∈ before ++ [move], x.Genuine setting c) :
    Course setting c database (calls (before ++ [move])) stop.ending := by
  induction trips generalizing before with
  | nil =>
    rcases pair_eq_split hsplit with ⟨rfl, rfl, -⟩ | ⟨rfl, rfl, -⟩
    · exact course_of_stop_alone rfl halike hstop (hgenuine move (by simp))
    · exact .next rfl (course_of_stop_alone rfl halike hstop (hgenuine move (by simp)))
  | cons trip trips ih =>
    rw [List.flatMap_cons, List.append_assoc] at hsplit
    rcases cons_eq_split hsplit with ⟨rfl, rfl, -⟩ | ⟨later, rfl, hlater⟩
    · cases move with
      | engine call answer =>
        have hmove : Course setting c database (Move.engine call answer).calls stop.ending :=
          Move.course_of_stop (Move.isAside_of_stop hstop) hstop trivial
        simpa [calls] using hmove
      | _ => cases halike
    · rcases cons_eq_split hlater with ⟨rfl, rfl, -⟩ | ⟨later, rfl, hrest⟩
      · cases move with
        | decrypt request calls outcome =>
          obtain rfl : trip.1 = request := halike
          have hdecrypt : Course setting c database _ stop.ending :=
            Move.course_of_decrypt hstop (hgenuine _ (by simp))
          simpa [Client.calls, Move.calls] using hdecrypt
        | _ => cases halike
      · have hrun := (hgenuine (.decrypt trip.1 trip.2 (.done ())) (by simp)).1
        have hrest' := ih hrest fun x hx => hgenuine x (List.mem_cons_of_mem _ (List.mem_cons_of_mem _ hx))
        show Course setting c database (calls (Move.served trip ++ (later ++ [move]))) stop.ending
        rw [calls_served_cons]
        exact .trip hrun hrest'

namespace Served

/-- The phase that is read and its round, where the context goes on. -/
theorem course_next (h : Served setting c database phase t (.done none)) (hu : Course setting c database u ending) :
    Course setting c database (.engine .phase (.ok phase) :: (t ++ u)) ending := by
  generalize hdone : Ending.done none = final at h
  cases h with
  | complete hround hgenuine =>
    obtain rfl := Ending.done.inj hdone
    by_cases hphase : phase = .needsDecryption
    · subst hphase
      cases hround with
      | decryption trips =>
        -- first the round trips, then the moves that find no decryptor left
        obtain ⟨htrips, -⟩ := List.forall_mem_append.1 hgenuine
        rw [calls, List.flatMap_append, List.append_assoc]
        exact .next rfl (course_trips trips htrips (.next rfl (.next rfl hu)))
    · have hready : phase ≠ .ready := by
        rintro rfl
        cases hround
      refine .next (hround.reads (.inr rfl)) (course_moves ?_ hu)
      exact fun move hmove => hround.passes hphase hready move hmove (hgenuine move hmove)
  | @interrupted _ before rest move other result stop hround halike hstop hgenuine =>
    cases stop <;> cases hdone
  | refused hneeds h => cases hdone
  | unknown code => cases hdone
  | spent hlength hgenuine => cases hdone

theorem course_last {document : Document} (h : Served setting c database phase t (.done (some document))) :
    Course setting c database (.engine .phase (.ok phase) :: t) (.done document) := by
  generalize hdone : Ending.done (some document) = final at h
  cases h with
  | complete hround hgenuine =>
    obtain rfl := Ending.done.inj hdone
    cases hround with
    | ready => exact .next rfl (.ended rfl)
    | done => exact .ended rfl
  | @interrupted _ before rest move other result stop hround halike hstop hgenuine =>
    cases stop <;> cases hdone
  | refused hneeds h => cases hdone
  | unknown code => cases hdone
  | spent hlength hgenuine => cases hdone

theorem course_stopped {stop : Stop ClientError}
    (h : Served setting c database phase t (stop.ending : Ending ClientError (Option Document))) :
    Course setting c database (.engine .phase (.ok phase) :: t) stop.ending := by
  generalize hending : Stop.ending stop = final at h
  cases h with
  | complete hround hgenuine => cases stop <;> cases hending
  | @interrupted _ before rest move other result stop' hround halike hstop hgenuine =>
    obtain rfl := Ending.stop_inj hending
    refine .next (hround.reads (.inl (by simp))) ?_
    obtain ⟨hbefore, hmove⟩ := List.forall_mem_append.1 hgenuine
    by_cases hphase : phase = .needsDecryption
    · subst hphase
      generalize hmoves : before ++ other :: rest = moves at hround
      cases hround with
      | decryption trips => exact course_stop_decryption trips hmoves.symm halike hstop hgenuine
    · have haside := (List.forall_mem_append.1 (hround.isAside hphase)).2
      have hother := (List.forall_mem_cons.1 haside).1
      have hlast : Course setting c database (calls [move]) stop.ending :=
        course_of_stop_alone hother halike hstop (List.forall_mem_singleton.1 hmove)
      rw [calls, List.flatMap_append]
      refine course_moves ?_ hlast
      by_cases hready : phase = .ready
      · subst hready
        generalize hmoves : before ++ other :: rest = moves at hround
        cases hround with
        | ready document =>
          -- the only move of this round is the one that stopped
          obtain ⟨rfl, -, -⟩ := singleton_eq_split hmoves.symm
          exact List.forall_mem_nil _
      · exact fun x hx => hround.passes hphase hready x (List.mem_append_left _ hx) (hbefore x hx)
  | refused hneeds h =>
    obtain rfl : stop = .failed _ := Ending.stop_inj hending
    exact .refused hneeds h
  | unknown code =>
    obtain rfl : stop = .failed _ := Ending.stop_inj hending
    exact .failed rfl
  | @spent trips hlength hgenuine =>
    obtain rfl : stop = .unfinished := Ending.stop_inj hending
    have hall : Course setting c database (calls (trips.flatMap Move.served) ++ []) .unfinished :=
      course_trips trips hgenuine .spent
    rw [List.append_nil] at hall
    exact .next rfl hall

end Served

theorem Protocol.course {n : Nat} (h : Protocol setting c database n t ending) :
    Course setting c database t ending := by
  induction h with
  | spent => exact .spent
  | unread e => exact .failed rfl
  | next hround hrest ih => exact hround.course_next ih
  | last hround => exact hround.course_last
  | stopped hround => exact hround.course_stopped

theorem verdict?_of_requirement {missing : String} (hneeds : requirement phase = some missing) :
    (Event.engine .phase (.ok phase)).verdict? = none := by
  cases phase <;> first | rfl | cases hneeds

namespace Course

/-- What an answer settles is how the course ends. -/
theorem decided (h : Course setting c database t ending) {x : Event} (hx : x ∈ t)
    {outcome : Except ClientError Document} (hverdict : x.verdict? = some outcome) :
    ending = .ofExcept outcome := by
  -- a round trip settles nothing by an answer of its own
  have htrip : ∀ {request : KeyRequest} {trip : List Event} {outcome : Ending KmsError Unit},
      HasRun setting (c.decryptKey request) trip outcome → x ∉ trip := by
    intro request trip outcome hrun hmem
    have hcalls := (yields_decryptKey_callsOf c request).of_hasRun hrun
    rw [Event.verdict?_of_ofRoundTrip (hcalls.only x hmem)] at hverdict
    cases hverdict
  induction h with
  | spent => cases hx
  | ended h =>
    rw [List.mem_singleton.1 hx, h] at hverdict
    cases hverdict
    rfl
  | failed h =>
    rw [List.mem_singleton.1 hx, h] at hverdict
    cases hverdict
    rfl
  | cut haside =>
    rw [List.mem_singleton.1 hx, Event.verdict?_cut] at hverdict
    cases hverdict
  | refused hneeds h =>
    rw [List.mem_singleton.1 hx, verdict?_of_requirement hneeds] at hverdict
    cases hverdict
  | unsupplied cause hsupplier =>
    rw [List.mem_singleton.1 hx] at hverdict
    cases hverdict
  | next he ht ih =>
    rcases List.mem_cons.1 hx with rfl | hx
    · rw [Event.verdict?_of_isPassing he] at hverdict
      cases hverdict
    · exact ih hx
  | trip hrun ht ih =>
    rcases List.mem_cons.1 hx with rfl | hx
    · cases hverdict
    · rcases List.mem_append.1 hx with hx | hx
      · exact absurd hx (htrip hrun)
      · exact ih hx
  | stopped stop hrun =>
    rcases List.mem_cons.1 hx with rfl | hx
    · cases hverdict
    · exact absurd hx (htrip hrun)

/-- A document does not come from nowhere. -/
theorem exists_output (h : Course setting c database t ending) {document : Document}
    (hending : ending = .done document) : ∃ x ∈ t, x.verdict? = some (.ok document) := by
  induction h with
  | spent => cases hending
  | ended h =>
    cases hending
    exact ⟨_, List.mem_singleton_self _, h⟩
  | failed h => cases hending
  | cut haside => cases hending
  | refused hneeds h => cases hending
  | unsupplied cause hsupplier => cases hending
  | next he ht ih =>
    obtain ⟨x, hx, hverdict⟩ := ih hending
    exact ⟨x, List.mem_cons_of_mem _ hx, hverdict⟩
  | trip hrun ht ih =>
    obtain ⟨x, hx, hverdict⟩ := ih hending
    exact ⟨x, List.mem_cons_of_mem _ (List.mem_append_right _ hx), hverdict⟩
  | stopped stop hrun => cases stop <;> cases hending

end Course

namespace Executed

variable {request : Request}

theorem decided (h : Executed setting c request database t ending) {x : Event} (hx : x ∈ t)
    {outcome : Except ClientError Document} (hverdict : x.verdict? = some outcome) :
    ending = .ofExcept outcome := by
  cases h with
  | closed hclosed => cases hx
  | rejected hopen e =>
    rw [List.mem_singleton.1 hx] at hverdict
    cases hverdict
    rfl
  | @driven t _ hopen hrun =>
    have hcourse := ((yields_drive c database).of_hasRun hrun).course
    rcases List.mem_cons.1 hx with rfl | hx
    · cases hverdict
    · rcases List.mem_append.1 hx with hx | hx
      · exact hcourse.decided hx hverdict
      · -- the release of the context settles nothing
        have hreleased : x = .engine .release () := by
          cases ending <;> simp [released] at hx <;> exact hx
        rw [hreleased] at hverdict
        cases hverdict

theorem exists_output (h : Executed setting c request database t ending) {document : Document}
    (hending : ending = .done document) : ∃ x ∈ t, x.verdict? = some (.ok document) := by
  cases h with
  | closed hclosed => cases hending
  | rejected hopen e => cases hending
  | driven hopen hrun =>
    have hcourse := ((yields_drive c database).of_hasRun hrun).course
    obtain ⟨x, hx, hverdict⟩ := hcourse.exists_output hending
    exact ⟨x, List.mem_cons_of_mem _ (List.mem_append_left _ hx), hverdict⟩

end Executed

end Client

/-- The context of a trace ends with a document: it is finished with it, or it is done, which leaves the empty one. -/
def Trace.EndsWith (t : List Event) (document : Document) : Prop :=
  .engine .finish (.ok document) ∈ t ∨ .engine .phase (.ok .done) ∈ t ∧ document = []

theorem Trace.endsWith_iff {t : List Event} {document : Document} :
    EndsWith t document ↔ ∃ x ∈ t, x.verdict? = some (.ok document) := by
  constructor
  · rintro (hfinish | ⟨hdone, rfl⟩)
    · exact ⟨_, hfinish, rfl⟩
    · exact ⟨_, hdone, rfl⟩
  · rintro ⟨x, hx, hverdict⟩
    unfold Event.verdict? at hverdict
    split at hverdict
    case h_1 =>
      cases hverdict
      exact .inl hx
    case h_2 =>
      cases hverdict
      exact .inr ⟨hx, rfl⟩
    case h_7 =>
      obtain ⟨e, -, he⟩ := Option.map_eq_some_iff.1 hverdict
      cases he
    all_goals cases hverdict

theorem Trace.EndsWith.mono {t u : List Event} {document : Document} (h : EndsWith t document)
    (htu : ∀ x ∈ t, x ∈ u) : EndsWith u document := by
  obtain ⟨x, hx, hverdict⟩ := endsWith_iff.1 h
  exact endsWith_iff.2 ⟨x, htu x hx, hverdict⟩

end FieldSeal
