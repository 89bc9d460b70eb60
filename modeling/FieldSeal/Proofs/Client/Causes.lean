import FieldSeal.Proofs.Client.Course
import FieldSeal.Proofs.Client.Trips
import FieldSeal.Proofs.Client.Validity

/-!
Causes of failures. Whatever an execution fails with is due to a refused argument, to an answer in its trace, or to one
of its round trips.
-/

namespace FieldSeal

open FieldSeal.Action FieldSeal.Trace

namespace ClientError

/-- Not wrapped, and no failure of closing. -/
def isBare : ClientError → Bool
  | .encryption _ | .release _ _ => false
  | _ => true

/-- How a failure is raised inside an operation: those of the marker and of round trips are wrapped at once. -/
def raised : ClientError → ClientError
  | .marking cause => .encryption (.marking cause)
  | .kms e => .encryption (.kms e)
  | e => e

end ClientError

namespace Client

variable {σ : Type} {setting : Setting σ} {scene : Scene σ} {c : Client} {op : Operation} {t u : List Event}
  {trips : List (Trip σ)}

/-- What a failure is due to. -/
inductive Cause (c : Client) (op : Operation) (t : List Event) (trips : List (Trip σ)) : ClientError → Prop where
  | closed (hclosed : c.closed = true) : Cause c op t trips .closed
  | argument {reason : String} (hreason : op.complaint? = some reason) :
      Cause c op t trips (.configuration reason)
  | engine {x : Event} {e : EngineError} (hx : x ∈ t) (he : x.rejection? = some e) : Cause c op t trips (.engine e)
  | collectionInfo {database : String} {filter : Document} {cause : Fault}
      (h : .service (.collectionInfo database filter) (some (.error cause)) ∈ t) :
      Cause c op t trips (.collectionInfo cause)
  | marking {database : String} {command : Document} {cause : Fault}
      (h : .service (.mark database command) (some (.error cause)) ∈ t) : Cause c op t trips (.marking cause)
  | keyVault {filter : Document} {cause : Fault} (h : .service (.findKeys filter) (some (.error cause)) ∈ t) :
      Cause c op t trips (.keyVault cause)
  | credentials {provider supplier : String} {cause : Fault}
      (hsupplier : (provider, supplier) ∈ c.credentials.suppliers.entries)
      (h : .service (.supply supplier) (some (.error cause)) ∈ t) :
      Cause c op t trips (.credentials provider cause)
  | kms {trip : Trip σ} {e : KmsError} (htrip : trip ∈ trips) (he : trip.outcome = .failed e) :
      Cause c op t trips (.kms e)
  | missing {phase : Phase} {what : String} (h : .engine .phase (.ok phase) ∈ t)
      (hneeds : requirement phase = some what) (hauto : c.auto = none) :
      Cause c op t trips (.configuration ("missing " ++ what))
  | nameless {phase : Phase} {what : String} (h : .engine .phase (.ok phase) ∈ t)
      (hneeds : requirement phase = some what) (hauto : c.isAuto = true) (hdatabase : op.database = none) :
      Cause c op t trips (.configuration "missing database name")
  | unsupported {code : Int} (h : .engine .phase (.ok (.unrecognized code)) ∈ t) :
      Cause c op t trips (.unsupportedPhase (.unrecognized code))
  | output {document : Document} {reason : String} (h : EndsWith t document)
      (hread : op.answer document = .error (.invalidOutput reason)) : Cause c op t trips (.invalidOutput reason)

namespace Cause

variable {e f : ClientError}

theorem isBare (h : Cause c op t trips f) : f.isBare = true := by
  cases h <;> rfl

theorem mono (h : Cause c op t trips f) (htu : ∀ x ∈ t, x ∈ u) : Cause c op u trips f := by
  cases h with
  | closed hclosed => exact .closed hclosed
  | argument hreason => exact .argument hreason
  | engine hx he => exact .engine (htu _ hx) he
  | collectionInfo h => exact .collectionInfo (htu _ h)
  | marking h => exact .marking (htu _ h)
  | keyVault h => exact .keyVault (htu _ h)
  | credentials hsupplier h => exact .credentials hsupplier (htu _ h)
  | kms htrip he => exact .kms htrip he
  | missing h hneeds hauto => exact .missing (htu _ h) hneeds hauto
  | nameless h hneeds hauto hdatabase => exact .nameless (htu _ h) hneeds hauto hdatabase
  | unsupported h => exact .unsupported (htu _ h)
  | output h hread => exact .output (h.mono htu) hread

/-- An answer that settles a failure is its cause. -/
theorem of_verdict? {x : Event} (hx : x ∈ t) (hverdict : x.verdict? = some (.error e)) :
    ∃ f, Cause c op t trips f ∧ e = f.raised := by
  unfold Event.verdict? at hverdict
  split at hverdict
  case h_3 =>
    cases hverdict
    exact ⟨_, .unsupported hx, rfl⟩
  case h_4 =>
    cases hverdict
    exact ⟨_, .collectionInfo hx, rfl⟩
  case h_5 =>
    cases hverdict
    exact ⟨_, .marking hx, rfl⟩
  case h_6 =>
    cases hverdict
    exact ⟨_, .keyVault hx, rfl⟩
  case h_7 =>
    obtain ⟨error, herror, he⟩ := Option.map_eq_some_iff.1 hverdict
    cases he
    exact ⟨.engine error, .engine hx herror, rfl⟩
  all_goals cases hverdict

theorem of_autoDatabase {phase : Phase} {what : String} (h : .engine .phase (.ok phase) ∈ t)
    (hneeds : requirement phase = some what) (he : c.autoDatabase op.database what = .error e) :
    Cause c op t trips e ∧ e.raised = e := by
  unfold autoDatabase at he
  split at he
  case h_1 hauto =>
    cases he
    exact ⟨.missing h hneeds hauto, rfl⟩
  case h_2 hauto hdatabase =>
    cases he
    exact ⟨.nameless h hneeds (by rw [isAuto, hauto]; rfl) hdatabase, rfl⟩
  case h_3 => cases he

end Cause

/-- Every failure of a course is due to an answer that it has met, if it is not due to a round trip. -/
theorem Course.caused {database : Option String} {ending : Ending ClientError Document}
    (h : Course setting c database t ending) (hdatabase : database = op.database)
    (htrip : ∀ error, ending = .failed (.encryption (.kms error)) → ∃ trip ∈ trips, trip.outcome = .failed error)
    {e : ClientError} (hfailed : ending = .failed e) : ∃ f, Cause c op t trips f ∧ e = f.raised := by
  induction h with
  | spent => cases hfailed
  | ended h => cases hfailed
  | cut haside => cases hfailed
  | @failed x error h =>
    cases hfailed
    exact Cause.of_verdict? (List.mem_singleton_self x) h
  | refused hneeds h =>
    cases hfailed
    rw [hdatabase] at h
    obtain ⟨hcause, hraised⟩ := Cause.of_autoDatabase (List.mem_singleton_self _) hneeds h
    exact ⟨e, hcause, hraised.symm⟩
  | @unsupplied provider supplier cause hsupplier =>
    cases hfailed
    exact ⟨.credentials provider cause, .credentials hsupplier (List.mem_singleton_self _), rfl⟩
  | next he ht ih =>
    obtain ⟨f, hcause, he⟩ := ih htrip hfailed
    exact ⟨f, hcause.mono fun _ hx => List.mem_cons_of_mem _ hx, he⟩
  | trip hrun ht ih =>
    obtain ⟨f, hcause, he⟩ := ih htrip hfailed
    exact ⟨f, hcause.mono fun _ hx => List.mem_cons_of_mem _ (List.mem_append_right _ hx), he⟩
  | stopped stop hrun =>
    cases stop with
    | failed error =>
      cases hfailed
      obtain ⟨trip, hmem, houtcome⟩ := htrip error rfl
      exact ⟨.kms error, .kms hmem houtcome, rfl⟩
    | expired => cases hfailed
    | unfinished => cases hfailed

theorem Executed.caused {request : Request} {ending : Ending ClientError Document}
    (h : Executed setting c request op.database t ending)
    (htrip : ∀ error, ending = .failed (.encryption (.kms error)) → ∃ trip ∈ trips, trip.outcome = .failed error)
    {e : ClientError} (hfailed : ending = .failed e) : ∃ f, Cause c op t trips f ∧ e = f.raised := by
  cases h with
  | closed hclosed =>
    cases hfailed
    exact ⟨.closed, .closed hclosed, rfl⟩
  | rejected hopen error =>
    cases hfailed
    exact Cause.of_verdict? (List.mem_singleton_self _) rfl
  | driven hopen hrun =>
    obtain ⟨f, hcause, he⟩ := ((yields_drive c op.database).of_hasRun hrun).course.caused rfl htrip hfailed
    exact ⟨f, hcause.mono fun _ hx => List.mem_cons_of_mem _ (List.mem_append_left _ hx), he⟩

/-- The round trips of an execution, and what its ending is due to. -/
structure Explained (setting : Setting σ) (scene : Scene σ) (c : Client) (op : Operation)
    (run : Run σ ClientError Document) (trips : List (Trip σ)) : Prop where
  marked : Trips setting c scene run.trace trips run.scene
  tripped : ∀ trip ∈ trips, ∀ stop : Stop KmsError, trip.outcome = stop.ending →
    run.ending = (stop.ending : Ending KmsError Document).mapError fun e => .encryption (.kms e)
  caused : ∀ e, run.ending = .failed e → ∃ f, Cause c op run.trace trips f ∧ e = f.raised

theorem Staged.explained {request : Request} {run : Run σ ClientError Document}
    (h : Staged setting c request scene run) (hexecuted : Executed setting c request op.database run.trace run.ending) :
    ∃ trips, Explained setting scene c op run trips := by
  cases h with
  | undriven hleads ht hown =>
    exact ⟨[], .of_asides hleads ht, fun _ htrip => absurd htrip List.not_mem_nil,
      fun _ => hexecuted.caused fun error herror => absurd herror (hown error)⟩
  | @driven made late last t trips ending hmade hattended hreleased =>
    refine ⟨trips, ?_, ?_, fun _ => hexecuted.caused fun error herror => ?_⟩
    · have hmarked := hattended.marked.append (.of_asides hreleased isAside_of_mem_released)
      rw [List.append_nil] at hmarked
      exact .aside hmade rfl hmarked
    · intro trip htrip stop hstop
      rw [Ending.mapError_ending]
      exact Ending.eq_ending_of_stop? (hattended.tripped htrip hstop)
    · refine hattended.exists_failed ?_
      rw [show ending = .failed (.encryption (.kms error)) from herror]
      rfl

theorem execute_explained (setting : Setting σ) (scene : Scene σ) (c : Client) (op : Operation) (request : Request) :
    ∃ trips, Explained setting scene c op (c.execute request op.database setting scene) trips :=
  (execute_staged setting c request op.database scene).explained (yields_execute c request op.database scene)

end Client

end FieldSeal
