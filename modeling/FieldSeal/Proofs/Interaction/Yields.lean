import FieldSeal.Interaction.Action

/-!
What all runs of an action have in common: a relation between trace and ending that holds whatever the scene.
There is one rule for each way to put actions together, so that a statement about an action follows the
action's own text.
-/

namespace FieldSeal

variable {σ ε δ α β : Type}

/-- How a run ends that gives no value. -/
inductive Stop (ε : Type) where
  | failed (error : ε)
  | expired
  | unfinished

def Stop.ending : Stop ε → Ending ε α
  | .failed e => .failed e
  | .expired => .expired
  | .unfinished => .unfinished

def Stop.mapError (f : δ → ε) : Stop δ → Stop ε
  | .failed e => .failed (f e)
  | .expired => .expired
  | .unfinished => .unfinished

namespace Ending

def stop? : Ending ε α → Option (Stop ε)
  | .done _ => none
  | .failed e => some (.failed e)
  | .expired => some .expired
  | .unfinished => some .unfinished

def mapError (f : δ → ε) : Ending δ α → Ending ε α
  | .done a => .done a
  | .failed e => .failed (f e)
  | .expired => .expired
  | .unfinished => .unfinished

/-- A failure as a value. -/
def caught : Ending δ α → Ending ε (Except δ α)
  | .done a => .done (.ok a)
  | .failed e => .done (.error e)
  | .expired => .expired
  | .unfinished => .unfinished

def ofExcept : Except ε α → Ending ε α
  | .ok a => .done a
  | .error e => .failed e

@[simp] theorem stop?_ending (stop : Stop ε) : (stop.ending : Ending ε α).stop? = some stop := by
  cases stop <;> rfl

theorem stop_inj {stop other : Stop ε} (h : (stop.ending : Ending ε α) = other.ending) : stop = other := by
  have hstops := congrArg Ending.stop? h
  rw [stop?_ending, stop?_ending] at hstops
  exact Option.some.inj hstops

theorem mapError_ending (f : δ → ε) (stop : Stop δ) :
    (stop.ending : Ending δ α).mapError f = (stop.mapError f).ending := by
  cases stop <;> rfl

theorem eq_ending_of_stop? {ending : Ending ε α} {stop : Stop ε} (h : ending.stop? = some stop) :
    ending = stop.ending := by
  cases ending <;> cases h <;> rfl

end Ending

namespace Action

variable {setting : Setting σ} {p : Action σ ε α} {P Q : List Event → Ending ε α → Prop}

def Yields (setting : Setting σ) (p : Action σ ε α) (Q : List Event → Ending ε α → Prop) : Prop :=
  ∀ scene, Q (p setting scene).trace (p setting scene).ending

/-- Some run of the action has this trace and this ending. -/
def HasRun (setting : Setting σ) (p : Action σ ε α) (t : List Event) (ending : Ending ε α) : Prop :=
  ∃ scene, (p setting scene).trace = t ∧ (p setting scene).ending = ending

theorem yields_hasRun : Yields setting p (HasRun setting p) :=
  fun scene => ⟨scene, rfl, rfl⟩

theorem Yields.of_hasRun {t : List Event} {ending : Ending ε α} (h : Yields setting p Q)
    (hrun : HasRun setting p t ending) : Q t ending := by
  obtain ⟨scene, rfl, rfl⟩ := hrun
  exact h scene

theorem Yields.mono (h : Yields setting p P) (hPQ : ∀ t ending, P t ending → Q t ending) :
    Yields setting p Q :=
  fun scene => hPQ _ _ (h scene)

theorem yields_pure {a : α} (h : Q [] (.done a)) : Yields setting (pure a) Q :=
  fun _ => h

theorem yields_fail {e : ε} (h : Q [] (.failed e)) : Yields setting (fail e) Q :=
  fun _ => h

/-- The trace of the first action stands in front of the trace of the second; an ending without a value is
the ending of both. -/
theorem Yields.bind {f : α → Action σ ε β} {Q : List Event → Ending ε β → Prop} (hp : Yields setting p P)
    (hdone : ∀ t a, P t (.done a) → Yields setting (f a) fun u ending => Q (t ++ u) ending)
    (hstop : ∀ t (stop : Stop ε), P t stop.ending → Q t stop.ending) : Yields setting (p >>= f) Q := by
  intro scene
  have h := hp scene
  rw [bind_apply]
  generalize p setting scene = run at h
  obtain ⟨ending, t, scene'⟩ := run
  cases ending with
  | done a => exact hdone t a h scene'
  | failed e => exact hstop t (.failed e) h
  | expired => exact hstop t .expired h
  | unfinished => exact hstop t .unfinished h

/-- An engine answers at once, with any answer of the call's type. -/
theorem yields_ask {call : EngineCall} {f : call.Answer → Action σ ε β} {Q : List Event → Ending ε β → Prop}
    (h : ∀ answer, Yields setting (f answer) fun t ending => Q (.engine call answer :: t) ending) :
    Yields setting (ask call >>= f) Q :=
  fun _ => h _ _

/-- The answer of a service comes in time, or the call is cut off and the action expires. -/
theorem yields_await {call : ServiceCall} {f : call.Answer → Action σ ε β} {Q : List Event → Ending ε β → Prop}
    (hcut : Q [.service call none] .expired)
    (h : ∀ answer, Yields setting (f answer) fun t ending => Q (.service call (some answer) :: t) ending) :
    Yields setting (await call >>= f) Q := by
  intro scene
  rw [bind_apply, await]
  split
  · split
    · exact h _ _
    · exact hcut
  · exact hcut

theorem yields_mapError {f : δ → ε} {p : Action σ δ α}
    (h : Yields setting p fun t ending => Q t (ending.mapError f)) : Yields setting (mapError f p) Q := by
  intro scene
  have hs := h scene
  unfold mapError
  generalize p setting scene = run at hs
  obtain ⟨ending, t, scene'⟩ := run
  cases ending <;> exact hs

theorem yields_attempt {p : Action σ δ α} {Q : List Event → Ending ε (Except δ α) → Prop}
    (h : Yields setting p fun t ending => Q t ending.caught) : Yields setting (attempt p) Q := by
  intro scene
  have hs := h scene
  unfold attempt
  generalize p setting scene = run at hs
  obtain ⟨ending, t, scene'⟩ := run
  cases ending <;> exact hs

/-- Under a limit of its own an action runs as it does under some deadline. Where it is the limit that is
reached the run goes on without a value. -/
theorem yields_within {limit : Nat} {Q : List Event → Ending ε (Option α) → Prop}
    (h : ∀ deadline, Yields { setting with deadline } p P)
    (hdone : ∀ t a, P t (.done a) → Q t (.done (some a)))
    (hlimit : ∀ t, P t .expired → Q t (.done none))
    (hstop : ∀ t (stop : Stop ε), P t stop.ending → Q t stop.ending) : Yields setting (within limit p) Q := by
  intro scene
  unfold within
  split
  · have hs := h (scene.now + limit) scene
    generalize p { setting with deadline := scene.now + limit } scene = run at hs
    obtain ⟨ending, t, scene'⟩ := run
    cases ending with
    | done a => exact hdone t a hs
    | failed e => exact hstop t (.failed e) hs
    | expired => exact hlimit t hs
    | unfinished => exact hstop t .unfinished hs
  · -- the outer deadline comes first: the action runs under it and its value is passed on
    have hs : Yields setting (some <$> p) Q := by
      rw [map_eq_pure_bind]
      refine (h setting.deadline).bind ?_ hstop
      intro t a ht
      exact yields_pure (by simpa using hdone t a ht)
    exact hs scene

/-- The rounds of a loop, counted by the fuel that they have. -/
theorem yields_rounds {round : Action σ ε (Option α)} {P : List Event → Ending ε (Option α) → Prop}
    {Q : Nat → List Event → Ending ε α → Prop} (hround : Yields setting round P) (hspent : Q 0 [] .unfinished)
    (hnext : ∀ n t u ending, P t (.done none) → Q n u ending → Q (n + 1) (t ++ u) ending)
    (hlast : ∀ n t a, P t (.done (some a)) → Q (n + 1) t (.done a))
    (hstop : ∀ n t (stop : Stop ε), P t stop.ending → Q (n + 1) t stop.ending) (fuel : Nat) :
    Yields setting (rounds round fuel) (Q fuel) := by
  induction fuel with
  | zero => exact fun _ => hspent
  | succ n ih =>
    refine hround.bind ?_ (hstop n)
    intro t result ht
    cases result with
    | some a => exact yields_pure (by simpa using hlast n t a ht)
    | none => exact ih.mono fun u ending hu => hnext n t u ending ht hu

/-- What follows a run of a context: its release, unless the run is still under way. -/
def released : Ending ε α → List Event
  | .unfinished => []
  | _ => [.engine .release ()]

theorem yields_releasing (h : Yields setting p fun t ending => Q (t ++ released ending) ending) :
    Yields setting (releasing p) Q := by
  intro scene
  have hs := h scene
  unfold releasing
  generalize p setting scene = run at hs
  obtain ⟨ending, t, scene'⟩ := run
  cases ending with
  | unfinished =>
    rw [released, List.append_nil] at hs
    exact hs
  | _ => exact hs

end Action

end FieldSeal
