import FieldSeal.Client.Operation
import FieldSeal.Proofs.Client.Driving

/-!
Executions: at most one context is made for a request, driven, and released. An operation turns its arguments into the
request, and what the context ends with into its own answer.
-/

namespace FieldSeal

open FieldSeal.Action FieldSeal.Trace

namespace Operation

/-- What a context is made for; closing needs none. -/
def request? : Operation → Option Request
  | .encrypt database command => some (.encryptCommand database command)
  | .decrypt response => some (.decryptResponse response)
  | .createDataKey provider options => some (.createDataKey provider options)
  | .encryptExplicitly value options => some (.encryptValue (Envelope.wrap value) options)
  | .decryptExplicitly value => some (.decryptValue (Envelope.wrap value.toJson))
  | .rewrapDataKeys filter options => some (.rewrapDataKeys filter options)
  | .close => none

/-- Only commands are for a database. -/
def database : Operation → Option String
  | .encrypt database _ => some database
  | _ => none

/-- The answer that is read from the document a context ends with. -/
def answer : (op : Operation) → Document → Except ClientError op.Answer
  | .encrypt _ _, output => .ok output
  | .decrypt _, output => .ok output
  | .createDataKey _ _, output => .ok output
  | .encryptExplicitly _ _, output => Envelope.unwrapBinary output
  | .decryptExplicitly _, output => Envelope.unwrap output
  | .rewrapDataKeys _ _, output => .ok output
  | .close, _ => .ok ()

/-- The failures of a decryption are wrapped. -/
def failure : Operation → ClientError → ClientError
  | .decrypt _, e => e.wrap
  | _, e => e

/-- How the operation ends when its context ends so. -/
def conclude (op : Operation) : Ending ClientError Document → Ending ClientError op.Answer
  | .done output => .ofExcept (op.answer output)
  | .failed e => .failed (op.failure e)
  | .expired => .expired
  | .unfinished => .unfinished

end Operation

namespace Client

variable {σ : Type} {setting : Setting σ}

/-- Runs of `execute`: no context is made, or one is made, driven and released. -/
inductive Executed (setting : Setting σ) (c : Client) (request : Request) (database : Option String) :
    List Event → Ending ClientError Document → Prop where
  | closed (hclosed : c.closed = true) : Executed setting c request database [] (.failed .closed)
  | rejected (hopen : c.closed = false) (e : EngineError) :
      Executed setting c request database [.engine (.createContext request) (.error e)] (.failed (.engine e))
  | driven {t : List Event} {ending : Ending ClientError Document} (hopen : c.closed = false)
      (hrun : HasRun setting (c.drive database) t ending) :
      Executed setting c request database
        (.engine (.createContext request) (.ok ()) :: (t ++ released ending)) ending

theorem yields_execute (c : Client) (request : Request) (database : Option String) :
    Yields setting (c.execute request database) (Executed setting c request database) := by
  unfold execute ensureOpen
  by_cases hclosed : c.closed = true
  · rw [if_pos hclosed]
    exact yields_fail (.closed hclosed)
  have hopen : c.closed = false := Bool.eq_false_iff.2 hclosed
  rw [if_neg hclosed]
  simp only [Action.ofExcept, pure_bind, bind_assoc]
  apply yields_ask
  intro answer
  cases answer with
  | error e => exact yields_fail (.rejected hopen e)
  | ok _ => exact yields_releasing (yields_hasRun.mono fun t ending hrun => .driven hopen hrun)

theorem isAside_of_mem_released {α : Type} {ending : Ending ClientError α} :
    ∀ e ∈ released ending, e.isAside = true := by
  cases ending with
  | unfinished => exact List.forall_mem_nil _
  | _ => exact List.forall_mem_singleton.2 rfl

end Client

end FieldSeal
