import FieldSeal.Proofs.Client.Closed

/-!
Bypassing over whole sessions. A client that bypasses encryption runs a session as the same client without the bypass
runs what remains of it when the bypassed calls are taken out.
-/

namespace FieldSeal

open FieldSeal.Action

namespace Operation

/-- The encryption of a command that names a database. -/
def isBypassable : Operation → Bool
  | .encrypt database _ => database ≠ ""
  | _ => false

def isClose : Operation → Bool
  | .close => true
  | _ => false

variable {α : Type} (operation : α → Operation)

/-- What remains of a row of calls when those that can be bypassed are taken out up to the first close. A client
that is `closed` has been closed before. -/
def remaining : Bool → List α → List α
  | _, [] => []
  | closed, call :: rest =>
    if closed = false ∧ (operation call).isBypassable = true then remaining closed rest
    else call :: remaining (closed || (operation call).isClose) rest

variable {closed : Bool} {call : α}

theorem isBypassable_encrypt {database : String} (hname : database ≠ "") (command : Document) :
    (Operation.encrypt database command).isBypassable = true :=
  decide_eq_true hname

theorem remaining_bypassed (hclosed : closed = false) (hcall : (operation call).isBypassable = true)
    (rest : List α) :
    remaining operation closed (call :: rest) = remaining operation closed rest := by
  rw [remaining, if_pos ⟨hclosed, hcall⟩]

theorem remaining_kept (hcall : ¬ (closed = false ∧ (operation call).isBypassable = true)) (rest : List α) :
    remaining operation closed (call :: rest) =
      call :: remaining operation (closed || (operation call).isClose) rest := by
  rw [remaining, if_neg hcall]

end Operation

namespace Client

open Operation

variable {σ : Type} {c : Client} {op : Operation}

/-- The same step of a client with the flag set or not. -/
def Step.withBypass (step : Step σ) (bypass : Bool) : Step σ :=
  { step with client := step.client.withBypass bypass }

theorem releaseAll_withBypass (c : Client) (bypass : Bool) (resources : List Resource) :
    ((c.withBypass bypass).releaseAll resources : Action σ ClientError _) = c.releaseAll resources := by
  induction resources with
  | nil => rfl
  | cons resource rest ih =>
    rw [releaseAll, releaseAll, ih]
    rfl

theorem close_withBypass (c : Client) (bypass : Bool) :
    ((c.withBypass bypass).close : Action σ ClientError Unit) = c.close := by
  unfold close
  rw [releaseAll_withBypass]
  rfl

/-- Only an open client that is to encrypt a command for a named database looks at the flag. -/
theorem perform_withBypass (hop : ¬ (c.closed = false ∧ op.isBypassable = true)) (bypass : Bool) :
    ((c.withBypass bypass).perform op : Action σ ClientError op.Answer) = c.perform op := by
  cases op with
  | encrypt database command =>
    show (c.withBypass bypass).encrypt database command = c.encrypt database command
    unfold encrypt
    by_cases hname : database = ""
    · rw [if_pos hname, if_pos hname]
      rfl
    · -- the client is closed, which is found out before the flag is looked at
      have hnamed := isBypassable_encrypt hname command
      have hclosed : c.closed = true := by simpa [hnamed] using hop
      have hclosed' : (c.withBypass bypass).closed = true := hclosed
      rw [ensureOpen_of_closed hclosed, ensureOpen_of_closed hclosed']
      rfl
  | close => exact close_withBypass c bypass
  | _ => rfl

/-- A call that is bypassed makes no call of its own, takes no time and gives the command back. -/
theorem perform_bypassed (hclosed : c.closed = false) {database : String} (hname : database ≠ "")
    (command : Document) (setting : Setting σ) (scene : Scene σ) :
    (c.withBypass true).perform (.encrypt database command) setting scene = ⟨.done command, [], scene⟩ := by
  have hopen : (c.withBypass true).closed = false := hclosed
  have hbypasses : (c.withBypass true).Bypasses (.encrypt database command) := ⟨rfl, rfl⟩
  have hvalid : (Operation.encrypt database command).Valid := hname
  obtain ⟨answer, hanswer, hperform⟩ := perform_of_bypasses (σ := σ) hopen hvalid hbypasses
  cases hanswer
  rw [hperform, pure_apply]

theorem after_withBypass {α : Type} (c : Client) (bypass : Bool) (op : Operation) (ending : Ending ClientError α) :
    (c.withBypass bypass).after op ending = (c.after op ending).withBypass bypass := by
  cases op with
  | close => cases hclosed : c.closed <;> cases ending <;> simp [after, withBypass, hclosed]
  | _ => rfl

theorem closed_after {α : Type} (c : Client) (op : Operation) (ending : Ending ClientError α) :
    (c.after op ending).closed = (c.closed || op.isClose) := by
  cases op with
  | close => cases hclosed : c.closed <;> cases ending <;> simp [after, isClose, hclosed]
  | _ => exact (Bool.or_false c.closed).symm

theorem next_withBypass (step : Step σ) (bypass : Bool) :
    (step.withBypass bypass).next = step.next.withBypass bypass :=
  after_withBypass step.client bypass step.operation step.run.ending

theorem step_withBypass (hop : ¬ (c.closed = false ∧ op.isBypassable = true)) (bypass : Bool) (world : World σ)
    (patience fuel : Nat) (scene : Scene σ) :
    (c.withBypass bypass).step world patience fuel scene op =
      (c.step world patience fuel scene op).withBypass bypass := by
  unfold step Step.withBypass
  rw [perform_withBypass hop]

theorem session_cons (world : World σ) (patience fuel : Nat) (c : Client) (scene : Scene σ) (op : Operation)
    (ops : List Operation) :
    session world patience fuel c scene (op :: ops) =
      c.step world patience fuel scene op ::
        session world patience fuel (c.step world patience fuel scene op).next
          (c.step world patience fuel scene op).run.scene ops :=
  rfl

/-- Two sessions side by side. A call that is bypassed is one of the first session only; any other is a step of
both, of clients that differ in the flag. -/
inductive Alongside : Bool → List (Step σ) → List (Step σ) → Prop where
  | nil (closed : Bool) : Alongside closed [] []
  | bypassed {d : Client} {database : String} {command : Document} {run : Run σ ClientError Document}
      {steps others : List (Step σ)} (hname : database ≠ "") (htrace : run.trace = [])
      (hending : run.ending = .done command) (hrest : Alongside false steps others) :
      Alongside false (⟨d, .encrypt database command, run⟩ :: steps) others
  | kept {closed : Bool} {step : Step σ} {steps others : List (Step σ)}
      (hkept : ¬ (closed = false ∧ step.operation.isBypassable = true))
      (hrest : Alongside (closed || step.operation.isClose) steps others) :
      Alongside closed (step.withBypass true :: steps) (step.withBypass false :: others)

/-- A bypassed call leaves client, time and world as they are, so the session goes on as if it had not been made;
any other call runs alike with the flag and without. -/
theorem session_alongside (world : World σ) (patience fuel : Nat) (c : Client) (scene : Scene σ)
    (ops : List Operation) :
    Alongside c.closed (session world patience fuel (c.withBypass true) scene ops)
      (session world patience fuel (c.withBypass false) scene (remaining id c.closed ops)) := by
  induction ops generalizing c scene with
  | nil => exact .nil c.closed
  | cons op ops ih =>
    rw [session_cons]
    by_cases hop : c.closed = false ∧ op.isBypassable = true
    · obtain ⟨hclosed, hop⟩ := hop
      obtain ⟨database, command, rfl⟩ : ∃ database command, op = .encrypt database command := by
        cases op with
        | encrypt database command => exact ⟨database, command, rfl⟩
        | _ => cases hop
      have hname : database ≠ "" := of_decide_eq_true hop
      have hrun := perform_bypassed hclosed hname command ⟨world, scene.now + patience, fuel⟩ scene
      have hscene : ((c.withBypass true).step world patience fuel scene (.encrypt database command)).run.scene =
          scene := congrArg Run.scene hrun
      have hrest := ih c scene
      rw [remaining_bypassed id hclosed hop, hscene]
      rw [hclosed] at hrest ⊢
      exact .bypassed hname (congrArg Run.trace hrun) (congrArg Run.ending hrun) hrest
    · have hclosed : (c.step world patience fuel scene op).next.closed = (c.closed || op.isClose) :=
        closed_after c op _
      have hrest := ih (c.step world patience fuel scene op).next (c.step world patience fuel scene op).run.scene
      rw [remaining_kept id hop, session_cons, step_withBypass hop, step_withBypass hop,
        next_withBypass, next_withBypass]
      rw [hclosed] at hrest
      have hstep : ¬ (c.closed = false ∧ (c.step world patience fuel scene op).operation.isBypassable = true) := hop
      exact Alongside.kept hstep hrest

namespace Alongside

variable {closed : Bool} {steps others : List (Step σ)}

theorem traceOf_eq (h : Alongside closed steps others) : traceOf steps = traceOf others := by
  induction h with
  | nil closed => rfl
  | bypassed hname htrace hending hrest ih => rw [traceOf_cons, htrace, List.nil_append, ih]
  | kept hkept hrest ih =>
    rw [traceOf_cons, traceOf_cons, ih]
    rfl

theorem remaining_eq (h : Alongside closed steps others) :
    remaining Step.operation closed steps = others.map (Step.withBypass · true) := by
  induction h with
  | nil closed => simp [remaining]
  | bypassed hname htrace hending hrest ih =>
    exact (remaining_bypassed Step.operation rfl (isBypassable_encrypt hname _) _).trans ih
  | @kept closed step steps others hkept hrest ih =>
    have hstep : ¬ (closed = false ∧ (step.withBypass true).operation.isBypassable = true) := hkept
    rw [remaining_kept Step.operation hstep, List.map_cons]
    exact congrArg (List.cons _) ih

theorem of_bypassed {before after : List (Step σ)} {d : Client} {database : String} {command : Document}
    {run : Run σ ClientError Document} (h : Alongside closed steps others) (hclosed : closed = false)
    (hsteps : steps = before ++ ⟨d, .encrypt database command, run⟩ :: after)
    (hbefore : ∀ step ∈ before, step.operation ≠ .close) (hname : database ≠ "") :
    run.trace = [] ∧ run.ending = .done command := by
  induction h generalizing before with
  | nil closed => exact absurd hsteps (by simp)
  | bypassed hname htrace hending hrest ih =>
    rcases Trace.cons_eq_split hsteps with ⟨-, hstep, -⟩ | ⟨rest, rfl, hrest⟩
    · cases hstep
      exact ⟨htrace, hending⟩
    · exact ih rfl hrest (List.forall_mem_cons.1 hbefore).2
  | @kept closed step steps others hkept hrest ih =>
    rcases Trace.cons_eq_split hsteps with ⟨-, hstep, -⟩ | ⟨rest, rfl, hrest⟩
    · have hop : step.operation = .encrypt database command := congrArg Step.operation hstep
      exact absurd ⟨hclosed, hop ▸ isBypassable_encrypt hname command⟩ hkept
    · obtain ⟨hfirst, hbefore⟩ := List.forall_mem_cons.1 hbefore
      have hopen : (closed || step.operation.isClose) = false := by
        rw [hclosed, Bool.false_or]
        cases hop : step.operation with
        | close => exact absurd hop hfirst
        | _ => rfl
      exact ih hopen hrest hbefore

end Alongside

/-- What bypassing changes in a session: `bypassing` are the steps of a client with the flag, `other` those of the
same client without it, for what remains of the same calls. -/
structure BypassesEncryption (c : Client) (bypassing other : List (Step σ)) : Prop where
  /-- No call on the engine or a service is added, left out or changed. -/
  calls : traceOf bypassing = traceOf other
  /-- The remaining calls run alike, to the same results. -/
  results : remaining Step.operation c.closed bypassing = other.map (Step.withBypass · true)
  /-- What is taken out had no effect but to give the command back. -/
  bypassed : c.closed = false → ∀ before d database command run after,
    bypassing = before ++ ⟨d, .encrypt database command, run⟩ :: after →
      (∀ step ∈ before, step.operation ≠ .close) → database ≠ "" →
        run.trace = [] ∧ run.ending = .done command
  /-- Nothing but the encryption of a command by an open client depends on the flag. -/
  flag : ∀ op, ¬ (c.closed = false ∧ op.isBypassable = true) →
    ((c.withBypass true).perform op : Action σ ClientError op.Answer) = (c.withBypass false).perform op

theorem session_bypasses_encryption (world : World σ) (patience fuel : Nat) (c : Client) (scene : Scene σ)
    (ops : List Operation) :
    BypassesEncryption c (session world patience fuel (c.withBypass true) scene ops)
      (session world patience fuel (c.withBypass false) scene (remaining id c.closed ops)) := by
  have halongside := session_alongside world patience fuel c scene ops
  refine ⟨halongside.traceOf_eq, halongside.remaining_eq, ?_, ?_⟩
  · intro hclosed before d database command run after hsteps hbefore hname
    exact halongside.of_bypassed hclosed hsteps hbefore hname
  · intro op hop
    rw [perform_withBypass hop, perform_withBypass hop]

end Client

end FieldSeal
