import FieldSeal.Client.Operation

/-!
Sessions: operations of one client, each run to its end, or abandoned, before the next starts.
-/

namespace FieldSeal.Client

/-- An operation of a session: the client it found, and its run. -/
structure Step (σ : Type) where
  client : Client
  operation : Operation
  run : Run σ ClientError operation.Answer

namespace Step

variable {σ : Type}

/-- The client the step leaves behind. -/
def next (step : Step σ) : Client :=
  step.client.after step.operation step.run.ending

end Step

variable {σ : Type}

/-- Runs an operation; after `patience` milliseconds its caller abandons it. -/
def step (c : Client) (world : World σ) (patience fuel : Nat) (scene : Scene σ) (op : Operation) : Step σ :=
  ⟨c, op, c.perform op ⟨world, scene.now + patience, fuel⟩ scene⟩

def session (world : World σ) (patience fuel : Nat) : Client → Scene σ → List Operation → List (Step σ)
  | _, _, [] => []
  | c, scene, op :: ops =>
    let first := c.step world patience fuel scene op
    first :: session world patience fuel first.next first.run.scene ops

end FieldSeal.Client
