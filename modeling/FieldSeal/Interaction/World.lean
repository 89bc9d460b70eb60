import FieldSeal.Interaction.Call

/-!
The world around a client, and runs in it. Time is a count of milliseconds that passes only
while a service call is under way.
-/

namespace FieldSeal

/-- What becomes of a service call: the state once it is begun and, unless it never ends, how long it
takes, its answer and the state after it. A call that is cut off leaves the state as it was begun. -/
structure Attempt (σ α : Type) where
  begun : σ
  outcome : Option (Nat × α × σ)

/-- What becomes of a service call may depend on when it is begun. -/
structure World (σ : Type) where
  engine : (call : EngineCall) → σ → call.Answer × σ
  service : (call : ServiceCall) → (now : Nat) → σ → Attempt σ call.Answer

structure Scene (σ : Type) where
  now : Nat
  state : σ

/-- How a run ends: with a value, with a failure, at its deadline, or out of fuel. -/
inductive Ending (ε α : Type) where
  | done (value : α)
  | failed (error : ε)
  | expired
  | unfinished

structure Run (σ ε α : Type) where
  ending : Ending ε α
  trace : List Event
  scene : Scene σ

namespace Run

variable {σ ε δ α β γ : Type}

/-- Goes on from a run that is done. -/
def andThen (r : Run σ ε α) (next : α → Scene σ → Run σ ε β) : Run σ ε β :=
  match r.ending with
  | .done a => ⟨(next a r.scene).ending, r.trace ++ (next a r.scene).trace, (next a r.scene).scene⟩
  | .failed e => ⟨.failed e, r.trace, r.scene⟩
  | .expired => ⟨.expired, r.trace, r.scene⟩
  | .unfinished => ⟨.unfinished, r.trace, r.scene⟩

/-- The same run with another ending. -/
def withEnding (r : Run σ ε α) (ending : Ending δ β) : Run σ δ β :=
  ⟨ending, r.trace, r.scene⟩

@[simp] theorem andThen_done (a : α) (t : List Event) (c : Scene σ) (next : α → Scene σ → Run σ ε β) :
    andThen ⟨.done a, t, c⟩ next = ⟨(next a c).ending, t ++ (next a c).trace, (next a c).scene⟩ := rfl

@[simp] theorem andThen_failed (e : ε) (t : List Event) (c : Scene σ) (next : α → Scene σ → Run σ ε β) :
    andThen ⟨.failed e, t, c⟩ next = ⟨.failed e, t, c⟩ := rfl

@[simp] theorem andThen_expired (t : List Event) (c : Scene σ) (next : α → Scene σ → Run σ ε β) :
    andThen ⟨.expired, t, c⟩ next = ⟨.expired, t, c⟩ := rfl

@[simp] theorem andThen_unfinished (t : List Event) (c : Scene σ) (next : α → Scene σ → Run σ ε β) :
    andThen ⟨.unfinished, t, c⟩ next = ⟨.unfinished, t, c⟩ := rfl

theorem andThen_assoc (r : Run σ ε α) (f : α → Scene σ → Run σ ε β) (g : β → Scene σ → Run σ ε γ) :
    (r.andThen f).andThen g = r.andThen fun a c => (f a c).andThen g := by
  obtain ⟨_ | _ | _ | _, t, c⟩ := r
  · next a =>
    simp only [andThen_done]
    obtain ⟨_ | _ | _ | _, t', c'⟩ := f a c <;> simp
  all_goals rfl

end Run

end FieldSeal
