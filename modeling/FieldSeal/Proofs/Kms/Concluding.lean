import FieldSeal.Proofs.Interaction.Settling
import FieldSeal.Proofs.Kms.RoundTripTime

/-!
Round trips end by themselves. Calls under a limit need not be answered for that.
-/

namespace FieldSeal

/-- Calls that are made under a limit of the service itself. -/
def ServiceCall.isLimited : ServiceCall → Bool
  | .connect _ _ | .write _ | .flush | .read _ => true
  | _ => false

/-- Every call that is under no limit is answered, sooner or later. -/
def World.Answers {σ : Type} (world : World σ) : Prop :=
  ∀ call : ServiceCall, call.isLimited = false → ∀ now state, (world.service call now state).outcome ≠ none

namespace StreamService

open FieldSeal.Action

variable {σ α : Type} {world : World σ} {host operation : String} {limit : Nat} {p : Action σ KmsError α}
  {Q : Setting σ → Scene σ → List (Moment σ) → Scene σ → Ending KmsError α → Prop}

/-- Under a limit of its own an action ends by itself, also where its calls do not. -/
theorem concludes_inTime (hfree : FuelFree p) (hends : ∀ setting, Yields setting p fun _ ending => ending ≠ .unfinished)
    (hrecords : ∀ setting scene, Records setting (inTime host operation limit p) scene (Q setting scene)) :
    Concludes world (inTime host operation limit p) := by
  intro scene
  -- all who wait for the limit see the same run, and the one who waits no longer stands for them
  let setting : Setting σ := ⟨world, scene.now + limit, 0⟩
  have hrun : ∀ deadline fuel, scene.now + limit ≤ deadline →
      inTime host operation limit p ⟨world, deadline, fuel⟩ scene = inTime host operation limit p setting scene := by
    intro deadline fuel hdeadline
    rw [inTime_of_le hdeadline, inTime_of_le (Nat.le_refl setting.deadline)]
    simp only [hfree world (scene.now + limit) fuel 0 scene, setting]
  refine ⟨inTime host operation limit p setting scene,
    ⟨scene.now + limit, fun deadline fuel hdeadline _ => hrun deadline fuel hdeadline⟩, ?_, ?_⟩
  · have hinner := hends setting scene
    rw [inTime_of_le (Nat.le_refl setting.deadline)]
    simp only [Run.withEnding]
    show ∃ outcome, Ending.late _ (p setting scene).ending = _
    cases hending : (p setting scene).ending with
    | done a => exact ⟨.ok a, rfl⟩
    | failed e => exact ⟨.error e, rfl⟩
    | expired => exact ⟨.error _, rfl⟩
    | unfinished => exact absurd hending hinner
  · obtain ⟨moments, htimeline, hevents, -⟩ := hrecords setting scene
    exact hevents ▸ htimeline.leads

theorem fuelFree_writeAll (host : String) (message : Bytes) :
    FuelFree (writeAll host message : Action σ KmsError Unit) := by
  induction hlength : message.length using Nat.strongRecOn generalizing message with
  | ind n ih =>
    rw [writeAll.eq_def]
    cases message with
    | nil => exact fuelFree_pure ()
    | cons b rest =>
      refine (fuelFree_await _).bind fun answer => ?_
      cases answer with
      | error cause => exact fuelFree_fail _
      | ok count =>
        obtain ⟨_ | count, hcount⟩ := count
        · exact fuelFree_fail _
        · have hshorter : (rest.drop count).length < n := by
            rw [List.length_cons] at hlength
            rw [List.length_drop]
            omega
          exact ih _ hshorter (rest.drop count) rfl

theorem concludes_writes (host : String) (message : Bytes) (limit : Nat) :
    Concludes world (inTime host "write" limit (writeAll host message)) :=
  concludes_inTime (fuelFree_writeAll host message)
    (fun _ => (writeAll_writing host message).mono fun _ _ h => h.callsOf.ends)
    fun setting scene => records_writes host message limit setting scene

theorem concludes_flush (host : String) (limit : Nat) :
    Concludes world (inTime host "write" limit (flush host)) :=
  concludes_inTime ((fuelFree_await .flush).bind (fuelFree_orFail _))
    (fun _ => (flush_flushing host).mono fun _ _ h => h.callsOf.ends)
    fun setting scene => records_flush host limit setting scene

theorem concludes_read (host : String) (want limit : Nat) :
    Concludes world (inTime host "read" limit (read host want)) := by
  refine concludes_inTime (((fuelFree_await (.read want)).bind (fuelFree_orFail _)).bind fun _ => fuelFree_pure _)
    (fun setting => ?_) fun setting scene => records_read host want limit setting scene
  unfold read
  rw [bind_assoc]
  refine yields_await nofun fun answer => ?_
  cases answer with
  | error cause => exact yields_fail nofun
  | ok bytes => exact yields_pure nofun

theorem concludes_receive (s : StreamService) (host : String) (room : Nat) :
    Concludes world (s.receive host room) := by
  induction room using Nat.strongRecOn with
  | ind room ih =>
    rw [receive]
    refine (concludes_ask .bytesNeeded).bind fun needed => ?_
    by_cases hneeded : needed = 0
    · rw [if_pos hneeded]
      exact concludes_pure ()
    rw [if_neg hneeded]
    cases room with
    | zero => exact concludes_fail _
    | succ room =>
      refine (concludes_read host _ s.ioLimit).bind fun bytes => ?_
      cases bytes with
      | nil => exact concludes_fail _
      | cons b rest =>
        exact (concludes_ask _).orFail.bind fun _ => ih _ (by omega)

theorem concludes_connect (s : StreamService) (request : KeyRequest) : Concludes world (s.connect request) := by
  unfold connect
  by_cases hclosed : s.closed = true
  · rw [if_pos hclosed]
    exact concludes_fail _
  rw [if_neg hclosed]
  refine (concludes_ofExcept _).bind fun address => Concludes.bind ?_ (concludes_orFail _)
  refine concludes_inTime (fuelFree_await _) (fun setting => ?_) fun setting scene =>
    records_inTime_call _ _ _ _ setting scene
  rw [← bind_pure (await _)]
  exact yields_await nofun fun answer => yields_pure nofun

/-- Only the shutdown has to be answered. -/
theorem concludes_decryptKey (s : StreamService) (request : KeyRequest) (hanswers : world.Answers) :
    Concludes world (s.decryptKey request) := by
  have hexchange : Concludes world (s.exchange request) :=
    (concludes_writes _ _ _).bind fun _ => (concludes_flush _ _).bind fun _ => concludes_receive s _ _
  refine (concludes_connect s request).bind fun _ => (concludes_attempt hexchange).bind fun outcome => ?_
  exact (concludes_await (hanswers .shutdown rfl)).bind fun _ => concludes_ofExcept outcome

end StreamService

end FieldSeal
