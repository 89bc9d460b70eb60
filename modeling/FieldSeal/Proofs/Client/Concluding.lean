import FieldSeal.Proofs.Client.Driving
import FieldSeal.Proofs.Client.Walking
import FieldSeal.Proofs.Kms.Concluding
import Mathlib.Order.WellFounded

/-!
Driving a context to its end takes a while and no longer, if the context walks through finitely many phases and its
collaborators answer. The loop over decryptors is measured by those still pending, the loop over rounds by the phases
still left.
-/

namespace FieldSeal

open FieldSeal.Action

variable {σ : Type} {world : World σ}

theorem Credentials.concludes_fetchFrom (hanswers : world.Answers) (order : List (String × String)) (doc : Document) :
    Concludes world (fetchFrom order doc) := by
  induction order generalizing doc with
  | nil => exact concludes_pure doc
  | cons entry rest ih =>
    obtain ⟨provider, supplier⟩ := entry
    unfold fetchFrom
    by_cases hproperties : hasProperties doc provider = true
    · rw [if_pos hproperties]
      exact ih doc
    · rw [if_neg hproperties]
      refine (concludes_await (hanswers (.supply supplier) rfl)).bind fun answer => ?_
      cases answer with
      | error cause => exact concludes_fail _
      | ok supplied =>
        cases supplied with
        | none => exact ih doc
        | some properties => exact ih _

namespace Client

variable {c : Client} {database : Option String} {phase : Phase}

theorem concludes_provideCollectionInfo (c : Client) (database : Option String) (hanswers : world.Answers) :
    Concludes world (c.provideCollectionInfo database) := by
  refine (concludes_ofExcept _).bind fun name => ?_
  refine (concludes_ask .operation).orFail.bind fun filter => ?_
  refine (concludes_await (hanswers (.collectionInfo name filter) rfl)).orFail.bind fun info => ?_
  have hcomplete : Concludes world (ask .completeOperation >>= orFail ClientError.engine) :=
    (concludes_ask .completeOperation).orFail
  cases info with
  | none => exact hcomplete
  | some info => exact (concludes_ask (.addResult info)).orFail.bind fun _ => hcomplete

theorem concludes_provideMarkings (c : Client) (database : Option String) (hanswers : world.Answers) :
    Concludes world (c.provideMarkings database) := by
  refine (concludes_ofExcept _).bind fun name => ?_
  refine (concludes_ask .operation).orFail.bind fun command => ?_
  refine (concludes_await (hanswers (.mark name command) rfl)).orFail.bind fun marked => ?_
  refine (concludes_ask (.addResult marked)).orFail.bind fun _ => ?_
  exact (concludes_ask .completeOperation).orFail

theorem concludes_provideCredentials (c : Client) (hanswers : world.Answers) :
    Concludes world c.provideCredentials :=
  (Credentials.concludes_fetchFrom hanswers _ _).bind fun document =>
    (concludes_ask (.provideCredentials document)).orFail

theorem concludes_addResults (results : List Document) :
    Concludes world (addResults results : Action σ ClientError Unit) := by
  induction results with
  | nil => exact concludes_pure ()
  | cons result rest ih =>
    exact (concludes_ask (.addResult result)).orFail.bind fun _ => ih

theorem concludes_provideKeys (hanswers : world.Answers) :
    Concludes world (provideKeys : Action σ ClientError Unit) := by
  refine (concludes_ask .operation).orFail.bind fun filter => ?_
  refine (concludes_await (hanswers (.findKeys filter) rfl)).orFail.bind fun keys => ?_
  exact (concludes_addResults keys).bind fun _ => (concludes_ask .completeOperation).orFail

theorem concludes_decryptKey (c : Client) (request : KeyRequest) (hanswers : world.Answers) :
    Concludes world (c.decryptKey request) := by
  unfold decryptKey
  cases c.keyService with
  | custom => exact (concludes_await (hanswers (.decryptKey request) rfl)).bind concludes_ofExcept
  | stream service => exact service.concludes_decryptKey request hanswers

theorem concludes_decryptNext (c : Client) (hanswers : world.Answers) : Concludes world c.decryptNext := by
  refine (concludes_ask .nextDecryptor).orFail.bind fun next => ?_
  cases next with
  | none => exact concludes_pure _
  | some request => exact (concludes_mapError (concludes_decryptKey c request hanswers)).bind fun _ => concludes_pure _

/-- A decryptor is handed out, and all other calls are of its round trip. -/
theorem yields_decryptNext (setting : Setting σ) (c : Client) : Yields setting c.decryptNext fun t ending =>
    ending = .done none → ∃ request trip, t = .engine .nextDecryptor (.ok (some request)) :: trip ∧
      ∀ e ∈ trip, e.ofRoundTrip = true := by
  unfold decryptNext
  rw [bind_assoc]
  refine yields_ask fun answer => ?_
  cases answer with
  | error e => exact yields_fail nofun
  | ok next =>
    cases next with
    | none => exact yields_pure nofun
    | some request =>
      have htrip : Yields setting (mapError (fun e => (ClientError.kms e).wrap) (c.decryptKey request))
          fun t _ => ∀ e ∈ t, e.ofRoundTrip = true :=
        yields_mapError ((yields_decryptKey_callsOf c request).mono fun t ending h => h.only)
      refine htrip.bind (fun t _ ht => ?_) fun t stop ht hstop => ?_
      · refine yields_pure fun _ => ⟨request, t, ?_, ht⟩
        rw [List.append_nil]
      · cases stop <;> cases hstop

section Walks

variable {ω : Type} [Preorder ω] [WellFoundedLT ω] {left : σ → List Phase} {pending : σ → ω}
  (hwalks : Walks world left pending) (hanswers : world.Answers)
include hwalks hanswers

theorem concludes_decryptKeys (c : Client) : Concludes world c.decryptKeys := by
  refine Concludes.bind ?_ fun _ => (concludes_ask .completeDecryptors).orFail
  refine concludes_loop (concludes_decryptNext c hanswers)
    (InvImage.wf (fun scene : Scene σ => pending scene.state) wellFounded_lt) ?_
  intro scene mid t hsettles
  obtain ⟨setting, -, hserved⟩ := hsettles.of_yields fun setting => yields_decryptNext setting c
  obtain ⟨request, trip, htrace, htrip⟩ := hserved rfl
  have hleads := hsettles.leads
  rw [htrace] at hleads
  -- the handout makes the measure less, and the round trip does not make up for it
  cases hleads with
  | cons hhandout hlater => exact (hwalks.pending_le hlater htrip).trans_lt (hwalks.hands _ hhandout rfl)

theorem concludes_round (c : Client) (database : Option String) : Concludes world (c.round database) := by
  refine (concludes_ask .phase).orFail.bind fun phase => ?_
  cases phase with
  | needsCollectionInfo => exact (concludes_provideCollectionInfo c database hanswers).bind fun _ => concludes_pure _
  | needsMarkings => exact (concludes_provideMarkings c database hanswers).bind fun _ => concludes_pure _
  | needsCredentials => exact (concludes_provideCredentials c hanswers).bind fun _ => concludes_pure _
  | needsKeys => exact (concludes_provideKeys hanswers).bind fun _ => concludes_pure _
  | needsDecryption => exact (concludes_decryptKeys hwalks hanswers c).bind fun _ => concludes_pure _
  | ready =>
    show Concludes world (some <$> (ask .finish >>= orFail ClientError.engine))
    rw [map_eq_pure_bind]
    exact (concludes_ask .finish).orFail.bind fun _ => concludes_pure _
  | done => exact concludes_pure _
  | unrecognized code => exact concludes_fail _

/-- Each round that is not the last leaves one phase less. -/
theorem concludes_drive (c : Client) (database : Option String) : Concludes world (c.drive database) := by
  refine concludes_loop (concludes_round hwalks hanswers c database)
    (measure fun scene : Scene σ => (left scene.state).length).wf ?_
  intro scene mid t hsettles
  obtain ⟨setting, -, hturned⟩ := hsettles.of_yields fun _ => yields_round c database
  have hleads := hsettles.leads
  cases hturned with
  | served hserved =>
    obtain ⟨moves, hround, rfl, hgenuine⟩ := hserved.of_done
    cases hleads with
    | cons hphase hlater =>
      have hleft := hround.left_eq hgenuine hwalks hphase hlater
      show (left mid.state).length < (left scene.state).length
      rw [hleft]
      exact Nat.lt_succ_self _

end Walks

end Client

end FieldSeal
