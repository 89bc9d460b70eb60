import FieldSeal.Proofs.Client.Protocol
import FieldSeal.Proofs.Interaction.Timeline
import Mathlib.Order.RelClasses

/-!
Contexts that walk through a list of phases. Such a context goes on to the next phase only when the call that completes
the phase succeeds, and it hands out finitely many decryptors. Each round of a client that is complete and
not the last takes it exactly one phase further.
-/

namespace FieldSeal

/-- The call that takes a context out of the phase if it succeeds. -/
def Phase.completedBy : Phase → Event → Bool
  | .needsCollectionInfo, .engine .completeOperation (.ok _)
  | .needsMarkings, .engine .completeOperation (.ok _)
  | .needsKeys, .engine .completeOperation (.ok _)
  | .needsCredentials, .engine (.provideCredentials _) (.ok _)
  | .needsDecryption, .engine .completeDecryptors (.ok _) => true
  | _, _ => false

/-- The phases that are left after an event. -/
def advance : List Phase → Event → List Phase
  | [], _ => []
  | phase :: phases, e => if phase.completedBy e then phases else phase :: phases

namespace Event

def isFinish : Event → Bool
  | .engine .finish _ => true
  | _ => false

/-- The phase that is read. -/
def phase? : Event → Option Phase
  | .engine .phase (.ok phase) => some phase
  | _ => none

/-- Calls that read the phase or can end it. -/
def concernsPhase : Event → Bool
  | .engine .phase _ | .engine .completeOperation _ | .engine (.provideCredentials _) _
  | .engine .completeDecryptors _ | .engine .finish _ => true
  | _ => false

/-- Calls by which a phase is served: it is not read again, and the context is not finished. -/
def isService : Event → Bool
  | .engine .phase _ | .engine .finish _ => false
  | _ => true

variable {e : Event}

theorem not_concernsPhase_of_ofSupplier (h : e.ofSupplier = true) : e.concernsPhase = false := by
  unfold ofSupplier at h
  split at h
  · rfl
  · cases h

theorem not_concernsPhase_of_ofRoundTrip (h : e.ofRoundTrip = true) : e.concernsPhase = false := by
  unfold ofRoundTrip onConnection at h
  split at h
  · rfl
  · rfl
  · rfl
  · split at h <;> first | rfl | cases h

theorem isService_of_not_concernsPhase (h : e.concernsPhase = false) : e.isService = true := by
  unfold isService
  split <;> first | rfl | cases h

theorem not_isFinish_of_isService (h : e.isService = true) : e.isFinish = false := by
  unfold isFinish
  split
  · cases h
  · rfl

theorem phase?_of_isService (h : e.isService = true) : e.phase? = none := by
  unfold phase?
  split
  · cases h
  · rfl

end Event

namespace Phase

variable {phase : Phase} {e : Event}

theorem not_completedBy (h : e.concernsPhase = false) : phase.completedBy e = false := by
  unfold completedBy
  split <;> first | rfl | cases h

theorem isService_of_completedBy (h : phase.completedBy e = true) : e.isService = true := by
  unfold completedBy at h
  split at h <;> first | rfl | cases h

end Phase

theorem advance_of_not_concernsPhase {e : Event} (h : e.concernsPhase = false) (phases : List Phase) :
    advance phases e = phases := by
  cases phases with
  | nil => rfl
  | cons phase phases => simp [advance, Phase.not_completedBy h]

theorem advance_phase (phases : List Phase) (answer : Except EngineError Phase) :
    advance phases (.engine .phase answer) = phases := by
  rcases phases with _ | ⟨_ | _ | _ | _ | _ | _ | _ | _, phases⟩ <;> rfl

theorem foldl_advance_of_not_concernsPhase {t : List Event} (ht : ∀ e ∈ t, e.concernsPhase = false)
    (phases : List Phase) : t.foldl advance phases = phases := by
  induction t with
  | nil => rfl
  | cons e t ih =>
    obtain ⟨he, ht⟩ := List.forall_mem_cons.1 ht
    rw [List.foldl_cons, advance_of_not_concernsPhase he, ih ht]

/-- The context goes through the phases that are `left` and reports `done` after the last of them. What the decryptors
still `pending` are measured by is made less by each one that is handed out, and not made more by the round trip
for it. After `finish` nothing is asked of the context. -/
structure Walks {σ ω : Type} [Preorder ω] (world : World σ) (left : σ → List Phase) (pending : σ → ω) : Prop where
  reads : ∀ state phase, (world.engine .phase state).1 = .ok phase → phase = (left state).headD .done
  moves : ∀ m : Moment σ, Happens world m → m.event.ofContext = true → m.event.isFinish = false →
    left m.ended.state = advance (left m.began.state) m.event
  hands : ∀ m : Moment σ, Happens world m → m.event.isHandout = true →
    pending m.ended.state < pending m.began.state
  holds : ∀ m : Moment σ, Happens world m → m.event.ofRoundTrip = true →
    pending m.ended.state ≤ pending m.began.state

namespace Walks

variable {σ ω : Type} [Preorder ω] {world : World σ} {left : σ → List Phase} {pending : σ → ω}
  {first last : Scene σ} {t : List Event}

theorem left_eq (h : Walks world left pending) (hleads : Leads world first t last)
    (ht : ∀ e ∈ t, e.ofContext = true ∧ e.isFinish = false) : left last.state = t.foldl advance (left first.state) := by
  induction hleads with
  | nil scene => rfl
  | cons hfirst hlater ih =>
    obtain ⟨⟨hcontext, hfinish⟩, ht⟩ := List.forall_mem_cons.1 ht
    rw [List.foldl_cons, ← h.moves _ hfirst hcontext hfinish]
    exact ih ht

theorem pending_le (h : Walks world left pending) (hleads : Leads world first t last)
    (ht : ∀ e ∈ t, e.ofRoundTrip = true) : pending last.state ≤ pending first.state := by
  induction hleads with
  | nil scene => exact le_rfl
  | cons hfirst hlater ih =>
    obtain ⟨hroundTrip, ht⟩ := List.forall_mem_cons.1 ht
    exact (ih ht).trans (h.holds _ hfirst hroundTrip)

theorem phase_eq (h : Walks world left pending) {phase : Phase}
    (hfirst : Happens world ⟨first, .engine .phase (.ok phase), last⟩) :
    phase = (left first.state).headD .done ∧ left last.state = left first.state := by
  obtain ⟨hanswer, -⟩ := hfirst.of_asked
  have hleft := h.left_eq (.singleton hfirst) (List.forall_mem_singleton.2 ⟨rfl, rfl⟩)
  refine ⟨h.reads _ _ hanswer.symm, ?_⟩
  exact hleft.trans (advance_phase _ _)

end Walks

namespace Client

variable {σ : Type} {setting : Setting σ} {c : Client} {database : Option String} {phase : Phase}
  {moves : List Move} {result : Option Document}

/-- A move that is no call that reads the phase or can end it. -/
def Move.isInside : Move → Bool
  | .engine call answer => !(Event.engine call answer).concernsPhase
  | .service _ _ | .fetch _ _ | .decrypt _ _ _ => true

theorem Move.Genuine.not_concernsPhase {move : Move} (h : move.Genuine setting c) (hinside : move.isInside = true) :
    ∀ e ∈ move.calls, e.concernsPhase = false := by
  cases move with
  | engine call answer => exact List.forall_mem_singleton.2 (Bool.not_eq_true' _ ▸ hinside)
  | service call answer => exact List.forall_mem_singleton.2 rfl
  | fetch calls ending => exact fun e he => Event.not_concernsPhase_of_ofSupplier (h.2.only e he)
  | decrypt request calls ending => exact fun e he => Event.not_concernsPhase_of_ofRoundTrip (h.2.only e he)

theorem not_concernsPhase (hgenuine : ∀ move ∈ moves, move.Genuine setting c)
    (hinside : ∀ move ∈ moves, move.isInside = true) : ∀ e ∈ calls moves, e.concernsPhase = false := by
  intro e he
  obtain ⟨move, hmove, he⟩ := List.mem_flatMap.1 he
  exact (hgenuine move hmove).not_concernsPhase (hinside move hmove) e he

/-- A round that is complete and not the last makes one call that can end the phase. This call is its last one, and
completes the phase. -/
theorem Round.completes (h : Round c database phase moves none) :
    ∃ earlier call answer, moves = earlier ++ [.engine call answer] ∧
      phase.completedBy (.engine call answer) = true ∧ ∀ move ∈ earlier, move.isInside = true := by
  have hadded : ∀ documents : List Document, ∀ move ∈ documents.map Move.added, move.isInside = true := by
    intro documents move hmove
    obtain ⟨document, -, rfl⟩ := List.mem_map.1 hmove
    rfl
  cases h with
  | collectionInfo hauto filter info =>
    refine ⟨_, _, _, rfl, rfl, List.forall_mem_append.2 ⟨?_, hadded _⟩⟩
    exact List.forall_mem_cons.2 ⟨rfl, List.forall_mem_singleton.2 rfl⟩
  | markings hauto command marked =>
    refine ⟨[.asked command, .service (.mark _ command) (some (.ok marked)), .added marked], _, _, rfl, rfl, ?_⟩
    exact List.forall_mem_cons.2 ⟨rfl, List.forall_mem_cons.2 ⟨rfl, List.forall_mem_singleton.2 rfl⟩⟩
  | credentials fetched document =>
    exact ⟨[.fetch fetched (.done document)], _, _, rfl, rfl, List.forall_mem_singleton.2 rfl⟩
  | keys filter keys =>
    refine ⟨_, _, _, rfl, rfl, List.forall_mem_append.2 ⟨?_, hadded _⟩⟩
    exact List.forall_mem_cons.2 ⟨rfl, List.forall_mem_singleton.2 rfl⟩
  | decryption trips =>
    refine ⟨trips.flatMap Move.served ++ [.engine .nextDecryptor (.ok none)], _, _, List.append_cons .., rfl, ?_⟩
    refine List.forall_mem_append.2 ⟨fun move hmove => ?_, List.forall_mem_singleton.2 rfl⟩
    obtain ⟨trip, -, htrip⟩ := List.mem_flatMap.1 hmove
    rcases List.mem_cons.1 htrip with rfl | htrip
    · rfl
    · rw [List.mem_singleton.1 htrip]
      rfl

theorem Round.foldl_advance (h : Round c database phase moves none)
    (hgenuine : ∀ move ∈ moves, move.Genuine setting c) (phases : List Phase) :
    (calls moves).foldl advance (phase :: phases) = phases := by
  obtain ⟨earlier, call, answer, rfl, hcompleted, hinside⟩ := h.completes
  have hearlier := not_concernsPhase (fun move hmove => hgenuine move (List.mem_append_left _ hmove)) hinside
  rw [calls_snoc, List.foldl_append, foldl_advance_of_not_concernsPhase hearlier]
  show advance (phase :: phases) (.engine call answer) = phases
  rw [advance, if_pos hcompleted]

/-- A move by which a phase is served. -/
def Move.isService : Move → Bool
  | .engine call answer => (Event.engine call answer).isService
  | .service _ _ | .fetch _ _ | .decrypt _ _ _ => true

theorem Round.isService (h : Round c database phase moves none) : ∀ move ∈ moves, move.isService = true := by
  obtain ⟨earlier, call, answer, rfl, hcompleted, hinside⟩ := h.completes
  refine List.forall_mem_append.2 ⟨fun move hmove => ?_, List.forall_mem_singleton.2 ?_⟩
  · cases move with
    | engine call answer => exact Event.isService_of_not_concernsPhase (Bool.not_eq_true' _ ▸ hinside _ hmove)
    | _ => rfl
  · exact Phase.isService_of_completedBy hcompleted

theorem isService_calls (hgenuine : ∀ move ∈ moves, move.Genuine setting c)
    (hservice : ∀ move ∈ moves, move.isService = true) : ∀ e ∈ calls moves, e.isService = true := by
  intro e he
  obtain ⟨move, hmove, he⟩ := List.mem_flatMap.1 he
  have hmoveGenuine := hgenuine move hmove
  cases move with
  | engine call answer =>
    rw [List.mem_singleton.1 he]
    exact hservice _ hmove
  | _ => exact Event.isService_of_not_concernsPhase (hmoveGenuine.not_concernsPhase rfl e he)

theorem Served.of_done {t : List Event} (h : Served setting c database phase t (.done result)) :
    ∃ moves, Round c database phase moves result ∧ t = calls moves ∧ ∀ move ∈ moves, move.Genuine setting c := by
  generalize hdone : Ending.done result = final at h
  cases h with
  | complete hround hgenuine =>
    obtain rfl := Ending.done.inj hdone
    exact ⟨_, hround, rfl, hgenuine⟩
  | @interrupted _ before rest move other result stop hround halike hstop hgenuine => cases stop <;> cases hdone
  | refused hneeds h => cases hdone
  | unknown code => cases hdone
  | spent hlength hgenuine => cases hdone

/-- A round that is complete and not the last takes the context from one phase to the next. -/
theorem Round.left_eq {ω : Type} [Preorder ω] {world : World σ} {left : σ → List Phase} {pending : σ → ω}
    (h : Round c database phase moves none) (hgenuine : ∀ move ∈ moves, move.Genuine setting c)
    (hwalks : Walks world left pending) {first mid last : Scene σ}
    (hphase : Happens world ⟨first, .engine .phase (.ok phase), mid⟩)
    (hleads : Leads world mid (calls moves) last) : left first.state = phase :: left last.state := by
  obtain ⟨hhead, hsame⟩ := hwalks.phase_eq hphase
  have hcontext : ∀ e ∈ calls moves, e.ofContext = true ∧ e.isFinish = false :=
    fun e he => ⟨calls_ofContext h.isInner hgenuine e he,
      Event.not_isFinish_of_isService (isService_calls hgenuine h.isService e he)⟩
  rw [hwalks.left_eq hleads hcontext, hsame]
  cases hleft : left first.state with
  | nil =>
    -- past the last phase the context is done, and no round goes on from there
    rw [hleft] at hhead
    subst hhead
    cases h
  | cons first phases =>
    rw [hleft] at hhead
    obtain rfl : phase = first := hhead
    rw [h.foldl_advance hgenuine]

end Client

end FieldSeal
