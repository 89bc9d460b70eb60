import FieldSeal.Proofs.Interaction.Timeline

/-!
Runs that end by themselves. An action concludes if, from every scene, all who wait long enough see the same run of it,
to its end. Again there is one rule for each way to put actions together; for a loop it asks for a measure.
-/

namespace FieldSeal

variable {σ ε δ α β : Type}

namespace Action

variable {world : World σ} {scene : Scene σ} {p : Action σ ε α} {run : Run σ ε α}

/-- The run that is seen with patience and fuel enough. It ends with a value or a failure. -/
structure Settles (world : World σ) (p : Action σ ε α) (scene : Scene σ) (run : Run σ ε α) : Prop where
  enough : ∃ bound, ∀ deadline fuel, bound ≤ deadline → bound ≤ fuel → p ⟨world, deadline, fuel⟩ scene = run
  ends : ∃ outcome, run.ending = .ofExcept outcome
  leads : Leads world scene run.trace run.scene

def Concludes (world : World σ) (p : Action σ ε α) : Prop :=
  ∀ scene, ∃ run, Settles world p scene run

/-- What all runs of an action have in common holds of the run that is settled on. -/
theorem Settles.of_yields {Q : Setting σ → List Event → Ending ε α → Prop} (h : Settles world p scene run)
    (hQ : ∀ setting : Setting σ, Yields setting p (Q setting)) :
    ∃ setting : Setting σ, setting.world = world ∧ Q setting run.trace run.ending := by
  obtain ⟨bound, hbound⟩ := h.enough
  have hrun := hQ ⟨world, bound, bound⟩ scene
  rw [hbound bound bound (Nat.le_refl _) (Nat.le_refl _)] at hrun
  exact ⟨_, rfl, hrun⟩

theorem concludes_pure (a : α) : Concludes world (pure a : Action σ ε α) :=
  fun scene => ⟨⟨.done a, [], scene⟩, ⟨0, fun _ _ _ _ => rfl⟩, ⟨.ok a, rfl⟩, .nil scene⟩

theorem concludes_fail (e : ε) : Concludes world (fail e : Action σ ε α) :=
  fun scene => ⟨⟨.failed e, [], scene⟩, ⟨0, fun _ _ _ _ => rfl⟩, ⟨.error e, rfl⟩, .nil scene⟩

theorem concludes_ofExcept (outcome : Except ε α) : Concludes world (ofExcept outcome : Action σ ε α) := by
  cases outcome with
  | ok a => exact concludes_pure a
  | error e => exact concludes_fail e

theorem concludes_orFail (f : δ → ε) (answer : Except δ α) : Concludes world (orFail f answer : Action σ ε α) := by
  cases answer with
  | ok a => exact concludes_pure a
  | error e => exact concludes_fail (f e)

theorem concludes_ask (call : EngineCall) : Concludes world (ask call : Action σ ε call.Answer) :=
  fun scene => ⟨ask call ⟨world, 0, 0⟩ scene, ⟨0, fun _ _ _ _ => rfl⟩, ⟨.ok _, rfl⟩,
    .singleton (.asked call scene)⟩

/-- A call that is answered is answered for all who wait for the answer. -/
theorem concludes_await {call : ServiceCall} (h : ∀ now state, (world.service call now state).outcome ≠ none) :
    Concludes world (await call : Action σ ε call.Answer) := by
  intro scene
  obtain ⟨⟨delay, answer, state⟩, houtcome⟩ := Option.ne_none_iff_exists'.1 (h scene.now scene.state)
  refine ⟨⟨.done answer, [.service call (some answer)], ⟨scene.now + delay, state⟩⟩, ⟨scene.now + delay, ?_⟩,
    ⟨.ok answer, rfl⟩, .singleton (.answered houtcome)⟩
  intro deadline fuel hdeadline _
  unfold await
  simp only [houtcome, if_pos hdeadline]

theorem Concludes.bind {f : α → Action σ ε β} (hp : Concludes world p) (hf : ∀ a, Concludes world (f a)) :
    Concludes world (p >>= f) := by
  intro scene
  obtain ⟨⟨ending, t, mid⟩, ⟨bound, hbound⟩, ⟨outcome, hends⟩, hleads⟩ := hp scene
  obtain rfl : ending = .ofExcept outcome := hends
  cases outcome with
  | error e =>
    refine ⟨⟨.failed e, t, mid⟩, ⟨bound, fun deadline fuel hdeadline hfuel => ?_⟩, ⟨.error e, rfl⟩,
      hleads⟩
    rw [bind_apply, hbound deadline fuel hdeadline hfuel]
    rfl
  | ok a =>
    obtain ⟨next, ⟨bound', hbound'⟩, hends', hlater⟩ := hf a mid
    refine ⟨⟨next.ending, t ++ next.trace, next.scene⟩, ⟨max bound bound', fun deadline fuel hdeadline hfuel => ?_⟩,
      hends', hleads.append hlater⟩
    rw [bind_apply, hbound deadline fuel (by omega) (by omega)]
    show Run.andThen ⟨.done a, t, mid⟩ _ = _
    rw [Run.andThen_done, hbound' deadline fuel (by omega) (by omega)]

theorem Concludes.orFail {p : Action σ ε (Except δ α)} {f : δ → ε} (hp : Concludes world p) :
    Concludes world (p >>= Action.orFail f) :=
  hp.bind (concludes_orFail f)

/-- An action that makes the same calls as one that concludes, and whose outcome is due to the outcome of that one. -/
theorem Concludes.of_outcome {p : Action σ δ α} {q : Action σ ε β} {f : Except δ α → Except ε β}
    (hp : Concludes world p) (hq : ∀ setting scene outcome t last,
      p setting scene = ⟨.ofExcept outcome, t, last⟩ → q setting scene = ⟨.ofExcept (f outcome), t, last⟩) :
    Concludes world q := by
  intro scene
  obtain ⟨⟨ending, t, last⟩, ⟨bound, hbound⟩, ⟨outcome, hends⟩, hleads⟩ := hp scene
  obtain rfl : ending = .ofExcept outcome := hends
  refine ⟨⟨.ofExcept (f outcome), t, last⟩, ⟨bound, fun deadline fuel hdeadline hfuel => ?_⟩, ⟨_, rfl⟩, hleads⟩
  exact hq _ scene outcome t last (hbound deadline fuel hdeadline hfuel)

theorem concludes_mapError {f : δ → ε} {p : Action σ δ α} (hp : Concludes world p) :
    Concludes world (mapError f p) := by
  refine hp.of_outcome (f := Except.mapError f) fun setting scene outcome t last hrun => ?_
  unfold mapError
  rw [hrun]
  cases outcome <;> rfl

theorem concludes_attempt {p : Action σ δ α} (hp : Concludes world p) :
    Concludes world (attempt p : Action σ ε (Except δ α)) := by
  refine hp.of_outcome (f := Except.ok) fun setting scene outcome t last hrun => ?_
  unfold attempt
  rw [hrun]
  cases outcome <;> rfl

/-- Fuel makes no difference to the action. -/
def FuelFree (p : Action σ ε α) : Prop :=
  ∀ world deadline fuel fuel' scene, p ⟨world, deadline, fuel⟩ scene = p ⟨world, deadline, fuel'⟩ scene

theorem fuelFree_pure (a : α) : FuelFree (pure a : Action σ ε α) :=
  fun _ _ _ _ _ => rfl

theorem fuelFree_fail (e : ε) : FuelFree (fail e : Action σ ε α) :=
  fun _ _ _ _ _ => rfl

theorem fuelFree_orFail (f : δ → ε) (answer : Except δ α) : FuelFree (orFail f answer : Action σ ε α) := by
  cases answer with
  | ok a => exact fuelFree_pure a
  | error e => exact fuelFree_fail (f e)

theorem fuelFree_await (call : ServiceCall) : FuelFree (await call : Action σ ε call.Answer) :=
  fun _ _ _ _ _ => rfl

theorem FuelFree.bind {f : α → Action σ ε β} (hp : FuelFree p) (hf : ∀ a, FuelFree (f a)) : FuelFree (p >>= f) := by
  intro world deadline fuel fuel' scene
  rw [bind_apply, bind_apply, hp world deadline fuel fuel' scene]
  congr 1
  funext a mid
  exact hf a world deadline fuel fuel' mid

section Loops

variable {round : Action σ ε (Option α)}

/-- A run of the rounds of a loop, with patience, fuel and rounds enough. -/
structure SettlesRounds (world : World σ) (round : Action σ ε (Option α)) (scene : Scene σ) (run : Run σ ε α) :
    Prop where
  enough : ∃ bound, ∀ deadline fuel n, bound ≤ deadline → bound ≤ fuel → bound ≤ n →
    rounds round n ⟨world, deadline, fuel⟩ scene = run
  ends : ∃ outcome, run.ending = .ofExcept outcome
  leads : Leads world scene run.trace run.scene

/-- A round that ends the loop. -/
theorem SettlesRounds.last {scene last : Scene σ} {t : List Event} {outcome : Except ε α}
    (h : Settles world round scene ⟨.ofExcept (outcome.map some), t, last⟩) :
    SettlesRounds world round scene ⟨.ofExcept outcome, t, last⟩ where
  enough := by
    obtain ⟨bound, hbound⟩ := h.enough
    refine ⟨bound + 1, fun deadline fuel n hdeadline hfuel hn => ?_⟩
    obtain ⟨n, rfl⟩ := Nat.exists_eq_add_of_le' (Nat.le_trans (Nat.le_add_left 1 bound) hn)
    rw [rounds, bind_apply, hbound deadline fuel (by omega) (by omega)]
    cases outcome with
    | ok a =>
      show Run.andThen ⟨.done (some a), t, last⟩ _ = _
      simp only [Run.andThen_done, pure_apply, List.append_nil]
      rfl
    | error e => rfl
  ends := ⟨outcome, rfl⟩
  leads := h.leads

/-- A round without a value, and the rounds after it. -/
theorem SettlesRounds.next {scene mid : Scene σ} {t : List Event} {run : Run σ ε α}
    (h : Settles world round scene ⟨.done none, t, mid⟩) (hrest : SettlesRounds world round mid run) :
    SettlesRounds world round scene ⟨run.ending, t ++ run.trace, run.scene⟩ where
  enough := by
    obtain ⟨bound, hbound⟩ := h.enough
    obtain ⟨bound', hbound'⟩ := hrest.enough
    refine ⟨max bound bound' + 1, fun deadline fuel n hdeadline hfuel hn => ?_⟩
    obtain ⟨n, rfl⟩ := Nat.exists_eq_add_of_le' (Nat.le_trans (Nat.le_add_left 1 _) hn)
    rw [rounds, bind_apply, hbound deadline fuel (by omega) (by omega), Run.andThen_done]
    dsimp only
    rw [hbound' deadline fuel n (by omega) (by omega) (by omega)]
  ends := hrest.ends
  leads := h.leads.append hrest.leads

/-- A loop concludes if each round does, and each round without a value leaves a scene that is less. -/
theorem concludes_loop (hround : Concludes world round) {less : Scene σ → Scene σ → Prop} (hless : WellFounded less)
    (hnext : ∀ scene mid t, Settles world round scene ⟨.done none, t, mid⟩ → less mid scene) :
    Concludes world (loop round) := by
  have hrounds : ∀ scene, ∃ run, SettlesRounds world round scene run := by
    intro scene
    induction scene using hless.induction with
    | _ scene ih =>
      obtain ⟨⟨ending, t, mid⟩, h⟩ := hround scene
      obtain ⟨outcome, hends⟩ := h.ends
      obtain rfl : ending = .ofExcept outcome := hends
      cases outcome with
      | error e =>
        have hlast : SettlesRounds world round scene ⟨.ofExcept (.error e), t, mid⟩ := .last h
        exact ⟨_, hlast⟩
      | ok value =>
        cases value with
        | some a =>
          have hlast : SettlesRounds world round scene ⟨.ofExcept (.ok a), t, mid⟩ := .last h
          exact ⟨_, hlast⟩
        | none =>
          obtain ⟨run, hrest⟩ := ih mid (hnext scene mid t h)
          exact ⟨_, .next h hrest⟩
  intro scene
  obtain ⟨run, ⟨bound, hbound⟩, hends, hleads⟩ := hrounds scene
  exact ⟨run, ⟨bound, fun deadline fuel hdeadline hfuel => hbound deadline fuel fuel hdeadline hfuel hfuel⟩, hends,
    hleads⟩

end Loops

end Action

end FieldSeal
