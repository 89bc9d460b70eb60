import FieldSeal.Interaction.World

/-!
Actions: sequences of calls, each of which may depend on the answers before it. An action runs in a world from a
scene, with a deadline at which the call under way is cut off and the action expires.
-/

namespace FieldSeal

/-- `fuel` bounds the rounds of each loop. -/
structure Setting (σ : Type) where
  world : World σ
  deadline : Nat
  fuel : Nat

def Action (σ ε α : Type) : Type :=
  Setting σ → Scene σ → Run σ ε α

namespace Action

variable {σ ε δ α β : Type}

instance : Monad (Action σ ε) where
  pure a := fun _ scene => ⟨.done a, [], scene⟩
  bind p f := fun setting scene => (p setting scene).andThen fun a => f a setting

@[simp] theorem pure_apply (a : α) (setting : Setting σ) (scene : Scene σ) :
    (pure a : Action σ ε α) setting scene = ⟨.done a, [], scene⟩ := rfl

@[simp] theorem bind_apply (p : Action σ ε α) (f : α → Action σ ε β) (setting : Setting σ)
    (scene : Scene σ) :
    (p >>= f) setting scene = (p setting scene).andThen fun a => f a setting := rfl

instance : LawfulMonad (Action σ ε) := LawfulMonad.mk' _
  (fun p => by
    funext setting scene
    change (p setting scene).andThen (fun a c => ⟨.done a, [], c⟩) = p setting scene
    obtain ⟨_ | _ | _ | _, t, c⟩ := p setting scene <;> simp)
  (fun a f => by
    funext setting scene
    simp)
  (fun p f g => by
    funext setting scene
    simp only [bind_apply, Run.andThen_assoc]
    rfl)

def fail (e : ε) : Action σ ε α :=
  fun _ scene => ⟨.failed e, [], scene⟩

def ofExcept : Except ε α → Action σ ε α
  | .ok a => pure a
  | .error e => fail e

/-- Fails with a failure of its own in place of that of an answer. -/
def orFail (f : δ → ε) : Except δ α → Action σ ε α
  | .ok a => pure a
  | .error e => fail (f e)

/-- Calls the engine. -/
def ask (call : EngineCall) : Action σ ε call.Answer :=
  fun setting scene =>
    let r := setting.world.engine call scene.state
    ⟨.done r.1, [.engine call r.1], ⟨scene.now, r.2⟩⟩

/-- Calls a service and waits for the answer, which is in time up to the deadline itself. -/
def await (call : ServiceCall) : Action σ ε call.Answer :=
  fun setting scene =>
    let attempt := setting.world.service call scene.now scene.state
    let cut : Run σ ε call.Answer :=
      ⟨.expired, [.service call none], ⟨setting.deadline, attempt.begun⟩⟩
    match attempt.outcome with
    | some (delay, answer, state) =>
      if scene.now + delay ≤ setting.deadline then
        ⟨.done answer, [.service call (some answer)], ⟨scene.now + delay, state⟩⟩
      else cut
    | none => cut

def warn (text : String) : Action σ ε Unit :=
  fun _ scene => ⟨.done (), [.warning text], scene⟩

/-- A failure of the action as a value. -/
def attempt (p : Action σ δ α) : Action σ ε (Except δ α) :=
  fun setting scene =>
    let r := p setting scene
    match r.ending with
    | .done a => r.withEnding (.done (.ok a))
    | .failed e => r.withEnding (.done (.error e))
    | .expired => r.withEnding .expired
    | .unfinished => r.withEnding .unfinished

def mapError (f : δ → ε) (p : Action σ δ α) : Action σ ε α :=
  fun setting scene =>
    let r := p setting scene
    match r.ending with
    | .done a => r.withEnding (.done a)
    | .failed e => r.withEnding (.failed (f e))
    | .expired => r.withEnding .expired
    | .unfinished => r.withEnding .unfinished

/-- Runs an action under a time limit of its own; `none` when the limit was reached. Where an outer
deadline falls on the same instant the limit is the one that counts. -/
def within (limit : Nat) (p : Action σ ε α) : Action σ ε (Option α) :=
  fun setting scene =>
    if scene.now + limit ≤ setting.deadline then
      let r := p { setting with deadline := scene.now + limit } scene
      match r.ending with
      | .done a => r.withEnding (.done (some a))
      | .failed e => r.withEnding (.failed e)
      | .expired => r.withEnding (.done none)
      | .unfinished => r.withEnding .unfinished
    else (some <$> p) setting scene

/-- Releases the context after an action that ends, however it ends. -/
def releasing (p : Action σ ε α) : Action σ ε α :=
  fun setting scene =>
    let r := p setting scene
    match r.ending with
    | .unfinished => r
    | ending =>
      let released := setting.world.engine .release r.scene.state
      ⟨ending, r.trace ++ [.engine .release released.1], ⟨r.scene.now, released.2⟩⟩

/-- Repeats a round until it gives a value. -/
def rounds (round : Action σ ε (Option α)) : Nat → Action σ ε α
  | 0 => fun _ scene => ⟨.unfinished, [], scene⟩
  | fuel + 1 => do
    match ← round with
    | some a => pure a
    | none => rounds round fuel

def loop (round : Action σ ε (Option α)) : Action σ ε α :=
  fun setting => rounds round setting.fuel setting

end Action

end FieldSeal
