import FieldSeal.Proofs.Interaction.Yields

/-!
Runs on the clock. A timeline is a run call by call, with the scene that each call finds and the scene that it
leaves. There is again one rule for each way to put actions together.
-/

namespace FieldSeal

variable {σ ε δ α β : Type}

/-- A call of a run, with the scenes before and after it. -/
structure Moment (σ : Type) where
  began : Scene σ
  event : Event
  ended : Scene σ

/-- How a call can go in a world. An answer takes the time that the service takes; a call is cut off only before its
answer would have come. -/
inductive Happens (world : World σ) : Moment σ → Prop where
  | asked (call : EngineCall) (scene : Scene σ) :
      Happens world ⟨scene, .engine call (world.engine call scene.state).1,
        ⟨scene.now, (world.engine call scene.state).2⟩⟩
  | answered {call : ServiceCall} {scene : Scene σ} {delay : Nat} {answer : call.Answer} {state : σ}
      (h : (world.service call scene.now scene.state).outcome = some (delay, answer, state)) :
      Happens world ⟨scene, .service call (some answer), ⟨scene.now + delay, state⟩⟩
  | cut {call : ServiceCall} {scene : Scene σ} {stop : Nat}
      (h : ∀ delay answer state, (world.service call scene.now scene.state).outcome = some (delay, answer, state) →
        stop < scene.now + delay) :
      Happens world ⟨scene, .service call none, ⟨stop, (world.service call scene.now scene.state).begun⟩⟩
  | warned (text : String) (scene : Scene σ) : Happens world ⟨scene, .warning text, scene⟩

theorem Happens.of_asked {world : World σ} {call : EngineCall} {answer : call.Answer} {scene last : Scene σ}
    (h : Happens world ⟨scene, .engine call answer, last⟩) :
    answer = (world.engine call scene.state).1 ∧ last = ⟨scene.now, (world.engine call scene.state).2⟩ := by
  generalize hm : (⟨scene, .engine call answer, last⟩ : Moment σ) = m at h
  cases h <;> cases hm
  exact ⟨rfl, rfl⟩

theorem Happens.of_answer {world : World σ} {call : ServiceCall} {answer : call.Answer} {scene last : Scene σ}
    (h : Happens world ⟨scene, .service call (some answer), last⟩) : ∃ delay,
      (world.service call scene.now scene.state).outcome = some (delay, answer, last.state) ∧
        last.now = scene.now + delay := by
  cases h with
  | answered houtcome => exact ⟨_, houtcome, rfl⟩

theorem Happens.of_cut {world : World σ} {call : ServiceCall} {scene last : Scene σ}
    (h : Happens world ⟨scene, .service call none, last⟩) {delay : Nat} {answer : call.Answer} {state : σ}
    (houtcome : (world.service call scene.now scene.state).outcome = some (delay, answer, state)) :
    last.now < scene.now + delay := by
  cases h with
  | cut hlate => exact hlate delay answer state houtcome

/-- Calls one after the other, each in the scene that the one before it left. -/
inductive Timeline (world : World σ) : Scene σ → List (Moment σ) → Scene σ → Prop where
  | nil (scene : Scene σ) : Timeline world scene [] scene
  | cons {moment : Moment σ} {later : List (Moment σ)} {last : Scene σ} (h : Happens world moment)
      (hlater : Timeline world moment.ended later last) : Timeline world moment.began (moment :: later) last

namespace Timeline

variable {world : World σ} {first mid last : Scene σ} {moments later : List (Moment σ)} {moment : Moment σ}

theorem singleton (h : Happens world moment) : Timeline world moment.began [moment] moment.ended :=
  .cons h (.nil _)

theorem append (h : Timeline world first moments mid) (hlater : Timeline world mid later last) :
    Timeline world first (moments ++ later) last := by
  induction h with
  | nil scene => exact hlater
  | cons h _ ih => exact .cons h (ih hlater)

end Timeline

/-- Events one after the other, from one scene to another. -/
inductive Leads (world : World σ) : Scene σ → List Event → Scene σ → Prop where
  | nil (scene : Scene σ) : Leads world scene [] scene
  | cons {first mid last : Scene σ} {e : Event} {t : List Event} (h : Happens world ⟨first, e, mid⟩)
      (hlater : Leads world mid t last) : Leads world first (e :: t) last

theorem Timeline.leads {world : World σ} {first last : Scene σ} {moments : List (Moment σ)}
    (h : Timeline world first moments last) : Leads world first (moments.map Moment.event) last := by
  induction h with
  | nil scene => exact .nil scene
  | cons h _ ih => exact .cons h ih

namespace Leads

variable {world : World σ} {first mid last : Scene σ} {t u : List Event} {e : Event}

theorem singleton (h : Happens world ⟨first, e, last⟩) : Leads world first [e] last :=
  .cons h (.nil last)

theorem append (h : Leads world first t mid) (hlater : Leads world mid u last) : Leads world first (t ++ u) last := by
  induction h with
  | nil scene => exact hlater
  | cons h _ ih => exact .cons h (ih hlater)

theorem split (h : Leads world first (t ++ u) last) : ∃ mid, Leads world first t mid ∧ Leads world mid u last := by
  induction t generalizing first with
  | nil => exact ⟨first, .nil first, h⟩
  | cons e t ih =>
    cases h with
    | cons hfirst hlater =>
      obtain ⟨mid, ht, hu⟩ := ih hlater
      exact ⟨mid, .cons hfirst ht, hu⟩

end Leads

namespace Action

variable {setting : Setting σ} {scene : Scene σ} {p : Action σ ε α}
  {P Q : List (Moment σ) → Scene σ → Ending ε α → Prop}

/-- What holds of the timeline of a run, of the scene that the run leaves, and of its ending. -/
def Records (setting : Setting σ) (p : Action σ ε α) (scene : Scene σ)
    (Q : List (Moment σ) → Scene σ → Ending ε α → Prop) : Prop :=
  ∃ moments, Timeline setting.world scene moments (p setting scene).scene ∧
    moments.map Moment.event = (p setting scene).trace ∧ Q moments (p setting scene).scene (p setting scene).ending

theorem Records.mono (h : Records setting p scene P) (hPQ : ∀ moments last ending, P moments last ending →
    Q moments last ending) : Records setting p scene Q := by
  obtain ⟨moments, htimeline, hevents, hP⟩ := h
  exact ⟨moments, htimeline, hevents, hPQ _ _ _ hP⟩

/-- What all traces of the action have in common holds of this one. -/
theorem Records.trace {R : List Event → Ending ε α → Prop} (h : Records setting p scene Q) (hR : Yields setting p R) :
    Records setting p scene fun moments last ending =>
      Q moments last ending ∧ R (moments.map Moment.event) ending := by
  obtain ⟨moments, htimeline, hevents, hQ⟩ := h
  exact ⟨moments, htimeline, hevents, hQ, hevents ▸ hR scene⟩

theorem Records.leads (h : Records setting p scene Q) :
    Leads setting.world scene (p setting scene).trace (p setting scene).scene := by
  obtain ⟨moments, htimeline, hevents, -⟩ := h
  rw [← hevents]
  exact htimeline.leads

theorem records_pure {a : α} (h : Q [] scene (.done a)) : Records setting (pure a) scene Q :=
  ⟨[], .nil scene, rfl, h⟩

theorem records_fail {e : ε} (h : Q [] scene (.failed e)) : Records setting (fail e) scene Q :=
  ⟨[], .nil scene, rfl, h⟩

/-- The second action begins in the scene that the first one leaves. -/
theorem Records.bind {f : α → Action σ ε β} {Q : List (Moment σ) → Scene σ → Ending ε β → Prop}
    (hp : Records setting p scene P)
    (hdone : ∀ moments mid a, P moments mid (.done a) → Records setting (f a) mid fun later last ending =>
      Q (moments ++ later) last ending)
    (hstop : ∀ moments last (stop : Stop ε), P moments last stop.ending → Q moments last stop.ending) :
    Records setting (p >>= f) scene Q := by
  obtain ⟨moments, htimeline, hevents, hP⟩ := hp
  unfold Records
  rw [bind_apply]
  generalize p setting scene = run at htimeline hevents hP
  obtain ⟨ending, t, mid⟩ := run
  cases ending with
  | done a =>
    obtain ⟨later, hrest, hlater, hQ⟩ := hdone moments mid a hP
    refine ⟨moments ++ later, htimeline.append hrest, ?_, hQ⟩
    rw [List.map_append, hevents, hlater]
    rfl
  | failed e => exact ⟨moments, htimeline, hevents, hstop moments mid (.failed e) hP⟩
  | expired => exact ⟨moments, htimeline, hevents, hstop moments mid .expired hP⟩
  | unfinished => exact ⟨moments, htimeline, hevents, hstop moments mid .unfinished hP⟩

theorem records_ask {call : EngineCall} {f : call.Answer → Action σ ε β}
    {Q : List (Moment σ) → Scene σ → Ending ε β → Prop}
    (h : ∀ answer last, Happens setting.world ⟨scene, .engine call answer, last⟩ → last.now = scene.now →
      Records setting (f answer) last fun moments final ending =>
        Q (⟨scene, .engine call answer, last⟩ :: moments) final ending) :
    Records setting (ask call >>= f) scene Q := by
  obtain ⟨moments, htimeline, hevents, hQ⟩ := h _ _ (.asked call scene) rfl
  exact ⟨_, .cons (.asked call scene) htimeline, congrArg (List.cons _) hevents, hQ⟩

/-- A call is answered by the deadline or cut off at it. -/
theorem records_await {call : ServiceCall} {f : call.Answer → Action σ ε β}
    {Q : List (Moment σ) → Scene σ → Ending ε β → Prop}
    (hcut : ∀ last, Happens setting.world ⟨scene, .service call none, last⟩ → last.now = setting.deadline →
      Q [⟨scene, .service call none, last⟩] last .expired)
    (hanswer : ∀ answer last, Happens setting.world ⟨scene, .service call (some answer), last⟩ →
      last.now ≤ setting.deadline → Records setting (f answer) last fun moments final ending =>
        Q (⟨scene, .service call (some answer), last⟩ :: moments) final ending) :
    Records setting (await call >>= f) scene Q := by
  have hlate : (∀ delay answer state, (setting.world.service call scene.now scene.state).outcome =
      some (delay, answer, state) → setting.deadline < scene.now + delay) →
      ∃ moments, Timeline setting.world scene moments
          ⟨setting.deadline, (setting.world.service call scene.now scene.state).begun⟩ ∧
        moments.map Moment.event = [.service call none] ∧ Q moments
          ⟨setting.deadline, (setting.world.service call scene.now scene.state).begun⟩ .expired :=
    fun h => ⟨_, .singleton (.cut h), rfl, hcut _ (.cut h) rfl⟩
  unfold Records
  rw [bind_apply, await]
  cases houtcome : (setting.world.service call scene.now scene.state).outcome with
  | none => exact hlate fun delay answer state h => by rw [houtcome] at h; cases h
  | some result =>
    obtain ⟨delay, answer, state⟩ := result
    by_cases htime : scene.now + delay ≤ setting.deadline
    · have hhappens : Happens setting.world
          ⟨scene, .service call (some answer), ⟨scene.now + delay, state⟩⟩ := .answered houtcome
      obtain ⟨moments, htimeline, hevents, hQ⟩ := hanswer answer _ hhappens htime
      simp only [if_pos htime, Run.andThen_done]
      exact ⟨_, .cons hhappens htimeline, congrArg (List.cons _) hevents, hQ⟩
    · simp only [if_neg htime, Run.andThen_expired]
      refine hlate fun delay' answer' state' h => ?_
      rw [houtcome] at h
      cases h
      exact Nat.not_le.1 htime

theorem records_attempt {p : Action σ δ α} {Q : List (Moment σ) → Scene σ → Ending ε (Except δ α) → Prop}
    (h : Records setting p scene fun moments last ending => Q moments last ending.caught) :
    Records setting (attempt p) scene Q := by
  obtain ⟨moments, htimeline, hevents, hQ⟩ := h
  unfold Records attempt
  generalize p setting scene = run at htimeline hevents hQ
  obtain ⟨ending, t, last⟩ := run
  cases ending <;> exact ⟨moments, htimeline, hevents, hQ⟩

end Action

end FieldSeal
