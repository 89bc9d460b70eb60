import FieldSeal.Client.Drive
import FieldSeal.Proofs.Kms.RoundTrip

/-!
The call protocol of a context, apart from the code that follows it. `Round` lists the calls of each phase when
all of them succeed; `Served` says how a round may end before that; `Protocol` puts rounds together into runs.
-/

namespace FieldSeal

namespace Event

/-- Calls of a credential fetch. -/
def ofSupplier : Event → Bool
  | .service (.supply _) _ => true
  | _ => false

/-- Calls while a context lives: on the context, on its decryptors, and on services for it. -/
def ofContext : Event → Bool
  | .engine (.createContext _) _ | .engine .release _ | .engine .close _ => false
  | .service .closeMarker _ | .service .closeInternalClient _ | .service .closeKms _ => false
  | .warning _ => false
  | _ => true

theorem ofContext_of_ofSupplier {e : Event} (h : e.ofSupplier = true) : e.ofContext = true := by
  unfold ofSupplier at h
  split at h
  · rfl
  · cases h

theorem ofContext_of_ofRoundTrip {e : Event} (h : e.ofRoundTrip = true) : e.ofContext = true := by
  unfold ofRoundTrip onConnection at h
  split at h
  · rfl
  · rfl
  · rfl
  · split at h <;> first | rfl | cases h

end Event

namespace Client

open FieldSeal.Action FieldSeal.Trace

variable {σ : Type}

/-- One move of a round. A credential fetch and a round trip are moves with calls of their own. -/
inductive Move where
  | engine (call : EngineCall) (answer : call.Answer)
  | service (call : ServiceCall) (answer : Option call.Answer)
  | fetch (calls : List Event) (ending : Ending ClientError Document)
  | decrypt (request : KeyRequest) (calls : List Event) (ending : Ending KmsError Unit)

namespace Move

def calls : Move → List Event
  | .engine call answer => [.engine call answer]
  | .service call answer => [.service call answer]
  | .fetch calls _ => calls
  | .decrypt _ calls _ => calls

/-- How a move that does not succeed ends the operation. -/
def stop? : Move → Option (Stop ClientError)
  | .engine .operation (.error e) | .engine (.addResult _) (.error e) | .engine .completeOperation (.error e)
  | .engine (.provideCredentials _) (.error e) | .engine .nextDecryptor (.error e)
  | .engine .completeDecryptors (.error e) | .engine .finish (.error e) => some (.failed (.engine e))
  | .service (.collectionInfo _ _) (some (.error cause)) => some (.failed (.collectionInfo cause))
  | .service (.mark _ _) (some (.error cause)) => some (.failed (.encryption (.marking cause)))
  | .service (.findKeys _) (some (.error cause)) => some (.failed (.keyVault cause))
  | .service _ none => some .expired
  | .fetch _ ending => ending.stop?
  | .decrypt _ _ ending => (ending.mapError fun e => ClientError.encryption (.kms e)).stop?
  | _ => none

/-- The same move, but for what comes back. -/
def Alike : Move → Move → Prop
  | .engine call _, .engine call' _ => call = call'
  | .service call _, .service call' _ => call = call'
  | .fetch _ _, .fetch _ _ => True
  | .decrypt request _ _, .decrypt request' _ _ => request = request'
  | _, _ => False

/-- The calls inside a fetch or a round trip are those of a run of it, and of no other kind. -/
def Genuine (setting : Setting σ) (c : Client) : Move → Prop
  | .fetch calls ending =>
    HasRun setting c.credentials.fetch calls ending ∧ CallsOf Event.ofSupplier calls ending
  | .decrypt request calls ending =>
    HasRun setting (c.decryptKey request) calls ending ∧ CallsOf Event.ofRoundTrip calls ending
  | .engine _ _ | .service _ _ => True

def asked (document : Document) : Move :=
  .engine .operation (.ok document)

def added (result : Document) : Move :=
  .engine (.addResult result) (.ok ())

def completed : Move :=
  .engine .completeOperation (.ok ())

/-- A decryptor is handed out and its round trip is done. -/
def served (trip : KeyRequest × List Event) : List Move :=
  [.engine .nextDecryptor (.ok (some trip.1)), .decrypt trip.1 trip.2 (.done ())]

end Move

def calls (moves : List Move) : List Event :=
  moves.flatMap Move.calls

theorem calls_snoc (made : List Move) (move : Move) : calls (made ++ [move]) = calls made ++ move.calls := by
  simp [calls]

/-- The moves of a round all of which succeed, after the phase is read. A round with a document is the last. -/
inductive Round (c : Client) : Option String → Phase → List Move → Option Document → Prop where
  | collectionInfo {database : String} (hauto : c.isAuto = true) (filter : Document) (info : Option Document) :
      Round c (some database) .needsCollectionInfo
        ([.asked filter, .service (.collectionInfo database filter) (some (.ok info))] ++
          info.toList.map Move.added ++ [.completed]) none
  | markings {database : String} (hauto : c.isAuto = true) (command marked : Document) :
      Round c (some database) .needsMarkings
        [.asked command, .service (.mark database command) (some (.ok marked)), .added marked, .completed] none
  | credentials {database : Option String} (fetched : List Event) (document : Document) :
      Round c database .needsCredentials
        [.fetch fetched (.done document), .engine (.provideCredentials document) (.ok ())] none
  | keys {database : Option String} (filter : Document) (keys : List Document) :
      Round c database .needsKeys
        ([.asked filter, .service (.findKeys filter) (some (.ok keys))] ++ keys.map Move.added ++
          [.completed]) none
  | decryption {database : Option String} (trips : List (KeyRequest × List Event)) :
      Round c database .needsDecryption
        (trips.flatMap Move.served ++
          [.engine .nextDecryptor (.ok none), .engine .completeDecryptors (.ok ())]) none
  | ready {database : Option String} (document : Document) :
      Round c database .ready [.engine .finish (.ok document)] (some document)
  | done {database : Option String} : Round c database .done [] (some [])

/-- What an auto-encryption client has for a phase that no other client can serve. -/
def requirement : Phase → Option String
  | .needsCollectionInfo => some "collection info retriever"
  | .needsMarkings => some "command marker"
  | _ => none

/-- The calls of a round after the phase is read. A round that is not complete went as a complete one up to
its last move, and that move did not succeed. -/
inductive Served (setting : Setting σ) (c : Client) (database : Option String) :
    Phase → List Event → Ending ClientError (Option Document) → Prop where
  | complete {phase : Phase} {moves : List Move} {result : Option Document}
      (hround : Round c database phase moves result) (hgenuine : ∀ move ∈ moves, move.Genuine setting c) :
      Served setting c database phase (calls moves) (.done result)
  | interrupted {phase : Phase} {before rest : List Move} {move other : Move} {result : Option Document}
      {stop : Stop ClientError} (hround : Round c database phase (before ++ other :: rest) result)
      (halike : other.Alike move) (hstop : move.stop? = some stop)
      (hgenuine : ∀ x ∈ before ++ [move], x.Genuine setting c) :
      Served setting c database phase (calls (before ++ [move])) stop.ending
  | refused {phase : Phase} {missing : String} {e : ClientError} (hneeds : requirement phase = some missing)
      (h : c.autoDatabase database missing = .error e) : Served setting c database phase [] (.failed e)
  | unknown (code : Int) :
      Served setting c database (.unrecognized code) [] (.failed (.unsupportedPhase (.unrecognized code)))
  | spent {trips : List (KeyRequest × List Event)} (hlength : trips.length = setting.fuel)
      (hgenuine : ∀ move ∈ trips.flatMap Move.served, move.Genuine setting c) :
      Served setting c database .needsDecryption (calls (trips.flatMap Move.served)) .unfinished

/-- The calls of a context from its creation on: rounds, each opened by one reading of the phase. The count
bounds the rounds of a run; only a run that reaches it is still under way. -/
inductive Protocol (setting : Setting σ) (c : Client) (database : Option String) :
    Nat → List Event → Ending ClientError Document → Prop where
  | spent : Protocol setting c database 0 [] .unfinished
  | unread {n : Nat} (e : EngineError) :
      Protocol setting c database (n + 1) [.engine .phase (.error e)] (.failed (.engine e))
  | next {n : Nat} {phase : Phase} {t u : List Event} {ending : Ending ClientError Document}
      (hround : Served setting c database phase t (.done none)) (hrest : Protocol setting c database n u ending) :
      Protocol setting c database (n + 1) (.engine .phase (.ok phase) :: (t ++ u)) ending
  | last {n : Nat} {phase : Phase} {t : List Event} {document : Document}
      (hround : Served setting c database phase t (.done (some document))) :
      Protocol setting c database (n + 1) (.engine .phase (.ok phase) :: t) (.done document)
  | stopped {n : Nat} {phase : Phase} {t : List Event} {stop : Stop ClientError}
      (hround : Served setting c database phase t stop.ending) :
      Protocol setting c database (n + 1) (.engine .phase (.ok phase) :: t) stop.ending

/-- A move that a round may hold. -/
def Move.isInner : Move → Bool
  | .engine call answer => (Event.engine call answer).ofContext
  | .service call answer => (Event.service call answer).ofContext
  | .fetch _ _ | .decrypt _ _ _ => true

/-- A move that neither hands out a decryptor nor serves one. -/
def Move.isAside : Move → Bool
  | .engine call answer => (Event.engine call answer).isAside
  | .service call answer => (Event.service call answer).isAside
  | .fetch _ _ => true
  | .decrypt _ _ _ => false

namespace Move

variable {setting : Setting σ} {c : Client} {move other : Move}

theorem Alike.isInner_eq (h : other.Alike move) : other.isInner = move.isInner := by
  cases other with
  | engine call answer =>
    cases move with
    | engine call' answer' =>
      obtain rfl : call = call' := h
      cases call <;> rfl
    | _ => cases h
  | service call answer =>
    cases move with
    | service call' answer' =>
      obtain rfl : call = call' := h
      cases call <;> rfl
    | _ => cases h
  | fetch calls ending =>
    cases move with
    | fetch calls' ending' => rfl
    | _ => cases h
  | decrypt request calls ending =>
    cases move with
    | decrypt request' calls' ending' => rfl
    | _ => cases h

theorem calls_ofContext (hinner : move.isInner = true) (hgenuine : move.Genuine setting c) :
    ∀ e ∈ move.calls, e.ofContext = true := by
  intro e he
  cases move with
  | engine call answer =>
    rw [List.mem_singleton.1 he]
    exact hinner
  | service call answer =>
    rw [List.mem_singleton.1 he]
    exact hinner
  | fetch calls ending => exact Event.ofContext_of_ofSupplier (hgenuine.2.only e he)
  | decrypt request calls ending => exact Event.ofContext_of_ofRoundTrip (hgenuine.2.only e he)

/-- Where a move lets the operation expire, its last call was cut off. -/
theorem endsCut (hstop : move.stop? = some .expired) (hgenuine : move.Genuine setting c) :
    EndsCut move.calls := by
  unfold stop? at hstop
  split at hstop
  case h_11 => exact endsCut_singleton _
  case h_12 calls ending => exact hgenuine.2.cut (Ending.eq_ending_of_stop? hstop)
  case h_13 request calls ending =>
    refine hgenuine.2.cut ?_
    cases ending <;> first | rfl | cases hstop
  all_goals cases hstop

end Move

variable {setting : Setting σ} {c : Client} {database : Option String} {phase : Phase}

/-- The moves of a round are aside from decryptors, but for those that serve one. -/
theorem Round.forall_mem {moves : List Move} {result : Option Document} {P : Move → Prop}
    (h : Round c database phase moves result)
    (haside : ∀ move : Move, move.isInner = true → move.isAside = true → P move)
    (hserved : phase = .needsDecryption → ∀ trip, ∀ move ∈ Move.served trip, P move) :
    ∀ move ∈ moves, P move := by
  have hadded : ∀ documents : List Document, ∀ move ∈ documents.map Move.added, P move := by
    intro documents move hmove
    obtain ⟨document, -, rfl⟩ := List.mem_map.1 hmove
    exact haside _ rfl rfl
  cases h with
  | collectionInfo hauto filter info =>
    simp only [List.forall_mem_append, List.forall_mem_cons]
    exact ⟨⟨⟨haside _ rfl rfl, haside _ rfl rfl, List.forall_mem_nil _⟩, hadded _⟩, haside _ rfl rfl,
      List.forall_mem_nil _⟩
  | markings hauto command marked =>
    simp only [List.forall_mem_cons]
    exact ⟨haside _ rfl rfl, haside _ rfl rfl, haside _ rfl rfl, haside _ rfl rfl, List.forall_mem_nil _⟩
  | credentials fetched document =>
    simp only [List.forall_mem_cons]
    exact ⟨haside _ rfl rfl, haside _ rfl rfl, List.forall_mem_nil _⟩
  | keys filter keys =>
    simp only [List.forall_mem_append, List.forall_mem_cons]
    exact ⟨⟨⟨haside _ rfl rfl, haside _ rfl rfl, List.forall_mem_nil _⟩, hadded _⟩, haside _ rfl rfl,
      List.forall_mem_nil _⟩
  | decryption trips =>
    -- only in this phase are there moves that serve a decryptor
    have htrips : ∀ move ∈ trips.flatMap Move.served, P move := by
      intro move hmove
      obtain ⟨trip, -, htrip⟩ := List.mem_flatMap.1 hmove
      exact hserved rfl trip move htrip
    simp only [List.forall_mem_append, List.forall_mem_cons]
    exact ⟨htrips, haside _ rfl rfl, haside _ rfl rfl, List.forall_mem_nil _⟩
  | ready document =>
    simp only [List.forall_mem_cons]
    exact ⟨haside _ rfl rfl, List.forall_mem_nil _⟩
  | done => exact List.forall_mem_nil _

theorem Round.isInner {moves : List Move} {result : Option Document} (h : Round c database phase moves result) :
    ∀ move ∈ moves, move.isInner = true := by
  refine h.forall_mem (fun _ hinner _ => hinner) ?_
  intro hphase trip
  simp only [Move.served, List.forall_mem_cons]
  exact ⟨rfl, rfl, List.forall_mem_nil _⟩

theorem Round.isAside {moves : List Move} {result : Option Document} (h : Round c database phase moves result)
    (hphase : phase ≠ .needsDecryption) : ∀ move ∈ moves, move.isAside = true :=
  h.forall_mem (fun _ _ haside => haside) fun hdecryption => absurd hdecryption hphase

theorem calls_ofContext {moves : List Move} (hinner : ∀ move ∈ moves, move.isInner = true)
    (hgenuine : ∀ move ∈ moves, move.Genuine setting c) : ∀ e ∈ calls moves, e.ofContext = true := by
  intro e he
  obtain ⟨move, hmove, he⟩ := List.mem_flatMap.1 he
  exact Move.calls_ofContext (hinner move hmove) (hgenuine move hmove) e he

namespace Served

variable {t : List Event} {ending : Ending ClientError (Option Document)}

theorem ofContext (h : Served setting c database phase t ending) : ∀ e ∈ t, e.ofContext = true := by
  cases h with
  | complete hround hgenuine => exact calls_ofContext hround.isInner hgenuine
  | @interrupted _ before rest move other result stop hround halike hstop hgenuine =>
    refine calls_ofContext ?_ hgenuine
    intro x hx
    rcases List.mem_append.1 hx with hx | hx
    · exact hround.isInner x (List.mem_append_left _ hx)
    · -- the last move is of the kind that the round has in its place
      rw [List.mem_singleton.1 hx, ← halike.isInner_eq]
      exact hround.isInner other (by simp)
  | refused hneeds h => exact List.forall_mem_nil _
  | unknown code => exact List.forall_mem_nil _
  | @spent trips hlength hgenuine =>
    have hround : Round c database .needsDecryption _ none := .decryption trips
    exact calls_ofContext (fun move hmove => hround.isInner move (List.mem_append_left _ hmove)) hgenuine

theorem endsCut (h : Served setting c database phase t ending) (hending : ending = .expired) : EndsCut t := by
  cases h with
  | complete hround hgenuine => cases hending
  | @interrupted _ before rest move other result stop hround halike hstop hgenuine =>
    cases stop with
    | failed e => cases hending
    | unfinished => cases hending
    | expired =>
      have hcut : EndsCut move.calls := Move.endsCut hstop (hgenuine move (by simp))
      rw [calls_snoc]
      exact hcut.append (calls before)
  | refused hneeds h => cases hending
  | unknown code => cases hending
  | spent hlength hgenuine => cases hending

end Served

namespace Protocol

variable {n : Nat} {t : List Event} {ending : Ending ClientError Document}

theorem ofContext (h : Protocol setting c database n t ending) : ∀ e ∈ t, e.ofContext = true := by
  induction h with
  | spent => exact List.forall_mem_nil _
  | unread e => simp [Event.ofContext]
  | next hround hrest ih =>
    intro e he
    rcases List.mem_cons.1 he with rfl | he
    · rfl
    · rcases List.mem_append.1 he with he | he
      · exact hround.ofContext e he
      · exact ih e he
  | last hround =>
    intro e he
    rcases List.mem_cons.1 he with rfl | he
    · rfl
    · exact hround.ofContext e he
  | stopped hround =>
    intro e he
    rcases List.mem_cons.1 he with rfl | he
    · rfl
    · exact hround.ofContext e he

/-- A run that expired was cut off at its last call. -/
theorem endsCut (h : Protocol setting c database n t ending) (hending : ending = .expired) : EndsCut t := by
  induction h with
  | spent => cases hending
  | unread e => cases hending
  | @next n phase t u ending hround hrest ih =>
    exact ((ih hending).append t).append [.engine .phase (.ok phase)]
  | last hround => cases hending
  | @stopped n phase t stop hround =>
    cases stop with
    | failed e => cases hending
    | unfinished => cases hending
    | expired => exact (hround.endsCut rfl).append [.engine .phase (.ok phase)]

end Protocol

end Client

end FieldSeal
