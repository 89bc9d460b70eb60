import FieldSeal.Proofs.Client.Closing
import FieldSeal.Proofs.Client.Lifetime

/-!
Closing over whole sessions. Until the first close the client stays as it was made; the first close closes what the
client owns; from then on the client makes no call.
-/

namespace FieldSeal

open FieldSeal.Action FieldSeal.Trace

theorem Event.closes?_of_ofContext {e : Event} (h : e.ofContext = true) : e.closes? = none := by
  unfold closes?
  split <;> first | rfl | cases h

namespace Client

variable {σ : Type} {setting : Setting σ} {c : Client}

theorem closings_eq_nil {t : List Event} (ht : ∀ e ∈ t, e.closes? = none) : closings t = [] :=
  List.filterMap_eq_nil_iff.2 ht

theorem Executed.closes_nothing {request : Request} {database : Option String} {t : List Event}
    {ending : Ending ClientError Document} (h : Executed setting c request database t ending) :
    ∀ e ∈ t, e.closes? = none := by
  cases h with
  | closed hclosed => exact List.forall_mem_nil _
  | rejected hopen e => exact List.forall_mem_singleton.2 rfl
  | driven hopen hrun =>
    have hprotocol := (yields_drive c database).of_hasRun hrun
    refine List.forall_mem_cons.2 ⟨rfl, List.forall_mem_append.2 ⟨?_, ?_⟩⟩
    · exact fun e he => Event.closes?_of_ofContext (hprotocol.ofContext e he)
    · cases ending <;> simp [released, Event.closes?]

theorem yields_closing_nothing (c : Client) {op : Operation} (hop : op ≠ .close) :
    Yields setting (c.perform op) fun t _ => closings t = [] := by
  obtain ⟨request, hrequest⟩ := Operation.exists_request hop
  refine (yields_perform c op hrequest).mono fun t ending h => ?_
  cases h with
  | early hexpired hunfinished => rfl
  | executed h => exact closings_eq_nil h.closes_nothing

/-- A step of a client that is closed already makes no call. Closing again succeeds, everything else fails: for the
client is closed, or for a reason that is found before that is looked at. -/
inductive Shut : Step σ → Prop where
  | again {d : Client} {run : Run σ ClientError Unit} (hclosed : d.closed = true) (htrace : run.trace = [])
      (hending : run.ending = .done ()) : Shut ⟨d, .close, run⟩
  | refused {d : Client} {op : Operation} {run : Run σ ClientError op.Answer} {e : ClientError}
      (hop : op ≠ .close) (hclosed : d.closed = true) (htrace : run.trace = []) (hending : run.ending = .failed e)
      (hreason : e = op.failure .closed ∨ ∃ reason, op.complaint? = some reason ∧ e = .configuration reason) :
      Shut ⟨d, op, run⟩

/-- Operations other than closing leave the client as it is. -/
theorem next_of_ne_close {step : Step σ} (hop : step.operation ≠ .close) : step.next = step.client := by
  obtain ⟨d, op, run⟩ := step
  cases op with
  | close => exact absurd rfl hop
  | _ => rfl

theorem Shut.next {step : Step σ} (h : Shut step) : step.next = step.client := by
  cases h with
  | @again d run hclosed htrace hending =>
    rw [Step.next, hending]
    exact if_pos hclosed
  | refused hop hclosed htrace hending hreason => exact next_of_ne_close hop

theorem Shut.trace {step : Step σ} (h : Shut step) : step.run.trace = [] := by
  cases h with
  | again hclosed htrace hending => exact htrace
  | refused hop hclosed htrace hending hreason => exact htrace

theorem traceOf_cons (step : Step σ) (steps : List (Step σ)) :
    traceOf (step :: steps) = step.run.trace ++ traceOf steps :=
  List.flatMap_cons

theorem traceOf_shut {steps : List (Step σ)} (h : ∀ step ∈ steps, Shut step) : traceOf steps = [] :=
  List.flatMap_eq_nil_iff.2 fun step hstep => (h step hstep).trace

theorem close_of_closed (hclosed : c.closed = true) : (c.close : Action σ ClientError Unit) = pure () := by
  unfold close
  rw [if_pos hclosed]

theorem shut_step (hclosed : c.closed = true) (world : World σ) (patience fuel : Nat) (scene : Scene σ)
    (op : Operation) : Shut (c.step world patience fuel scene op) := by
  let setting : Setting σ := ⟨world, scene.now + patience, fuel⟩
  by_cases hop : op = .close
  · subst hop
    have hperform : c.perform .close setting scene = ⟨.done (), [], scene⟩ :=
      congrFun (congrFun (close_of_closed hclosed) setting) scene
    exact .again hclosed (congrArg Run.trace hperform) (congrArg Run.ending hperform)
  · by_cases hfirst : op.Valid ∨ op.isCommand = true
    · have hperform : c.perform op setting scene = ⟨.failed (op.failure .closed), [], scene⟩ :=
        congrFun (congrFun (perform_of_closed hop hclosed hfirst) setting) scene
      exact .refused hop hclosed (congrArg Run.trace hperform) (congrArg Run.ending hperform) (.inl rfl)
    · -- the arguments are looked at first, and they are not valid
      simp only [not_or, Bool.not_eq_true] at hfirst
      obtain ⟨reason, hreason⟩ := Option.ne_none_iff_exists'.1 (mt Operation.valid_iff.2 hfirst.1)
      have hperform : c.perform op setting scene = ⟨.failed (.configuration reason), [], scene⟩ :=
        congrFun (congrFun (perform_of_complaint hreason (.inr hfirst.2)) setting) scene
      exact .refused hop hclosed (congrArg Run.trace hperform) (congrArg Run.ending hperform)
        (.inr ⟨reason, hreason, rfl⟩)

theorem session_shut (hclosed : c.closed = true) (world : World σ) (patience fuel : Nat) (scene : Scene σ)
    (ops : List Operation) :
    ∀ step ∈ session world patience fuel c scene ops, Shut step ∧ step.client = c := by
  induction ops generalizing scene with
  | nil => exact List.forall_mem_nil _
  | cons op ops ih =>
    have hfirst := shut_step hclosed world patience fuel scene op
    have hnext : (c.step world patience fuel scene op).next = c := hfirst.next
    refine List.forall_mem_cons.2 ⟨⟨hfirst, rfl⟩, ?_⟩
    rw [hnext]
    exact ih _

/-- A session, step by step: other operations leave the client as it is, the first close shuts it. -/
inductive Lifecycle (c : Client) : List (Step σ) → Prop where
  | nil : Lifecycle c []
  | used {step : Step σ} {rest : List (Step σ)} (hclient : step.client = c) (hop : step.operation ≠ .close)
      (htrace : closings step.run.trace = []) (hrest : Lifecycle c rest) : Lifecycle c (step :: rest)
  | closed {run : Run σ ClientError Unit} {rest : List (Step σ)} (hrun : Closes c run.trace run.ending)
      (hrest : ∀ step ∈ rest, Shut step ∧ step.client = (Step.mk c .close run).next) :
      Lifecycle c (⟨c, .close, run⟩ :: rest)

theorem closed_next (c : Client) (run : Run σ ClientError Unit) : (Step.mk c .close run).next.closed = true := by
  obtain ⟨ending, t, scene⟩ := run
  cases hclosed : c.closed <;> cases ending <;> simp [Step.next, after, hclosed]

theorem session_lifecycle (world : World σ) (patience fuel : Nat) (c : Client) (scene : Scene σ)
    (ops : List Operation) : Lifecycle c (session world patience fuel c scene ops) := by
  induction ops generalizing scene with
  | nil => exact .nil
  | cons op ops ih =>
    by_cases hop : op = .close
    · -- the rest of the session starts with a closed client, however the close ended
      subst hop
      exact .closed (yields_closes c scene) (session_shut (closed_next c _) world patience fuel _ ops)
    · refine .used rfl hop (yields_closing_nothing c hop scene) ?_
      have hnext : (c.step world patience fuel scene op).next = c := next_of_ne_close hop
      rw [hnext]
      exact ih _

namespace Lifecycle

variable {steps before after : List (Step σ)} {d : Client} {run : Run σ ClientError Unit}

/-- No resource is closed twice. -/
theorem closings_prefix (h : Lifecycle c steps) : closings (traceOf steps) <+: c.owned.filter c.closesByCall := by
  induction h with
  | nil => exact List.nil_prefix
  | used hclient hop htrace hrest ih =>
    rw [traceOf_cons, closings_append, htrace]
    exact ih
  | @closed run rest hrun hrest =>
    rw [traceOf_cons, traceOf_shut fun step hstep => (hrest step hstep).1, List.append_nil]
    exact hrun.closings_prefix

theorem first (h : Lifecycle c steps) (hsteps : steps = before ++ ⟨d, .close, run⟩ :: after)
    (hbefore : ∀ step ∈ before, step.operation ≠ .close) : d = c ∧ Closes c run.trace run.ending := by
  induction h generalizing before with
  | nil => exact absurd hsteps (by simp)
  | used hclient hop htrace hrest ih =>
    rcases cons_eq_split hsteps with ⟨-, rfl, -⟩ | ⟨rest, rfl, hu⟩
    · exact absurd rfl hop
    · exact ih hu (List.forall_mem_cons.1 hbefore).2
  | closed hrun hrest =>
    rcases cons_eq_split hsteps with ⟨-, hstep, -⟩ | ⟨rest, rfl, hu⟩
    · cases hstep
      exact ⟨rfl, hrun⟩
    · exact absurd rfl (List.forall_mem_cons.1 hbefore).1

theorem shut (h : Lifecycle c steps) (hsteps : steps = before ++ ⟨d, .close, run⟩ :: after) :
    ∀ step ∈ after, Shut step := by
  induction h generalizing before with
  | nil => exact absurd hsteps (by simp)
  | used hclient hop htrace hrest ih =>
    rcases cons_eq_split hsteps with ⟨-, rfl, -⟩ | ⟨rest, rfl, hu⟩
    · exact absurd rfl hop
    · exact ih hu
  | @closed _ rest hrun hrest =>
    rcases cons_eq_split hsteps with ⟨-, -, rfl⟩ | ⟨later, -, rfl⟩
    · exact fun step hstep => (hrest step hstep).1
    · exact fun step hstep => (hrest step (by simp [hstep])).1

end Lifecycle

/-- A close that comes to an end leaves the client closed, and a stream service with it. -/
theorem next_of_close {run : Run σ ClientError Unit} (hopen : c.closed = false) {outcome : Except ClientError Unit}
    (hends : run.ending = .ofExcept outcome) : (Step.mk c .close run).next = { c with
      closed := true
      keyService := match c.keyService with
        | .custom => .custom
        | .stream service => .stream { service with closed := true } } := by
  have hafter : (Step.mk c .close run).next = { c with closed := true, keyService := c.keyService.close } := by
    cases outcome <;> simp [Step.next, after, hends, Ending.ofExcept, hopen]
  rw [hafter]
  cases c.keyService <;> rfl

theorem exists_verdict (failures : List (Resource × Fault)) : ∃ outcome, verdict failures = .ofExcept outcome := by
  cases failures with
  | nil => exact ⟨.ok (), rfl⟩
  | cons failure rest => exact ⟨.error _, rfl⟩

/-- A close in which every resource answers. Each is closed once, in the order in which the client owns them and
whatever those before it said. The first failure is returned, each later one is logged. -/
structure ClosesAll (c : Client) (run : Run σ ClientError Unit) (answers : List Answered) : Prop where
  order : answers.map Answered.resource = c.owned
  trace : run.trace = answers.flatMap c.closing ++ (c.failures answers).tail.map warning
  ending : run.ending = verdict (c.failures answers)
  success : run.ending = .done () ↔ ∀ a ∈ answers, c.outcome a = .ok ()
  /-- A stream service is closed together with its client: there is no call for it. -/
  next : (Step.mk c .close run).next = { c with
    closed := true
    keyService := match c.keyService with
      | .custom => .custom
      | .stream service => .stream { service with closed := true } }

theorem verdict_eq_done_iff (c : Client) (answers : List Answered) :
    verdict (c.failures answers) = .done () ↔ ∀ a ∈ answers, c.outcome a = .ok () := by
  induction answers with
  | nil => exact iff_of_true rfl (List.forall_mem_nil _)
  | cons a answers ih =>
    rw [failures_cons, List.forall_mem_cons]
    cases houtcome : c.outcome a with
    | ok _ => simpa using ih
    | error fault => simp [verdict]

theorem Closes.closesAll {run : Run σ ClientError Unit} (h : Closes c run.trace run.ending)
    (hopen : c.closed = false) (hanswered : ∀ call, .service call none ∉ run.trace) :
    ∃ answers, ClosesAll c run answers := by
  obtain ⟨ending, t, scene⟩ := run
  cases h with
  | again hclosed => simp [hopen] at hclosed
  | answered hopen answers howned =>
    refine ⟨answers, howned, rfl, rfl, verdict_eq_done_iff c answers, ?_⟩
    obtain ⟨outcome, hverdict⟩ := exists_verdict (c.failures answers)
    exact next_of_close hopen hverdict
  | @cut hopen answers resource rest call howned hcall =>
    exact absurd (List.mem_append_right _ List.mem_cons_self) (hanswered call)

/-- The failure of a close names one resource and no other. -/
theorem Resource.name_injective : Function.Injective Resource.name := by
  have hall : ∀ a ∈ Resource.inOrder, ∀ b ∈ Resource.inOrder, a.name = b.name → a = b := by decide
  have hmem (resource : Resource) : resource ∈ Resource.inOrder := by
    cases resource <;> decide
  exact fun a b => hall a (hmem a) b (hmem b)

/-- What closing means for the steps of a session. -/
structure ClosedOnce (c : Client) (steps : List (Step σ)) : Prop where
  /-- Only closing changes a client. -/
  kept : ∀ step ∈ steps, step.operation ≠ .close → step.next = step.client
  /-- The first close finds the client as it was made and closes all that it owns. -/
  first : ∀ before d run after, steps = before ++ ⟨d, .close, run⟩ :: after →
    (∀ step ∈ before, step.operation ≠ .close) →
      d = c ∧ ((∀ call, .service call none ∉ run.trace) → ∃ answers, ClosesAll c run answers)
  /-- After a close, however it ended, the client is shut for good. -/
  shut : ∀ before d run after, steps = before ++ ⟨d, .close, run⟩ :: after →
    ∀ step ∈ after, Shut step ∧ step.next = step.client
  /-- In the whole session no resource is closed twice. -/
  once : (closings (traceOf steps)).Nodup
  /-- By the name in a failure or a warning it is known which resource it is of. -/
  named : Function.Injective Resource.name

theorem session_closes_once (world : World σ) (patience fuel : Nat) {c : Client} (hopen : c.closed = false)
    (scene : Scene σ) (ops : List Operation) : ClosedOnce c (session world patience fuel c scene ops) := by
  have hlifecycle := session_lifecycle world patience fuel c scene ops
  refine ⟨fun _ _ => next_of_ne_close, ?_, ?_, ?_, Resource.name_injective⟩
  · intro before d run after hsteps hbefore
    obtain ⟨rfl, hrun⟩ := hlifecycle.first hsteps hbefore
    exact ⟨rfl, hrun.closesAll hopen⟩
  · intro before d run after hsteps step hstep
    have hshut := hlifecycle.shut hsteps step hstep
    exact ⟨hshut, hshut.next⟩
  · exact ((nodup_owned c).filter _).sublist hlifecycle.closings_prefix.sublist

/-- A world in which the engine and the key service fail when they are closed. -/
def failingWorld (marker : Option (Except Fault Unit)) : World Script where
  engine
    | .close, s => (.error (.status 2 "engine busy"), s)
    | call, s => scripted.engine call s
  service
    | .closeMarker, _, s => ⟨s, marker.map fun answer => (1, answer, s)⟩
    | .closeKms, _, s => ⟨s, some (1, .error (.plain "socket stuck"), s)⟩
    | call, now, s => scripted.service call now s

/-- A client that owns every kind of resource. -/
def owningClient : Client :=
  .automatic .custom {} false ⟨true⟩

def failingDecryption : Step Script :=
  owningClient.step (failingWorld (some (.ok ()))) 10 3 ⟨0, ⟨[.ready], [], 0⟩⟩ (.decrypt [])

def failingClose : Run Script ClientError Unit :=
  (owningClient.step (failingWorld (some (.ok ()))) 10 3 failingDecryption.run.scene .close).run

theorem session_closes_once_failing :
    ClosedOnce owningClient (session (failingWorld (some (.ok ()))) 10 3 owningClient ⟨0, ⟨[.ready], [], 0⟩⟩
      [.decrypt [], .close, .encrypt "db" [], .close]) ∧
    (∃ answers, ClosesAll owningClient failingClose answers) ∧
    failingClose.trace = [.engine .close (.error (.status 2 "engine busy")),
      .service .closeMarker (some (.ok ())), .service .closeInternalClient (some (.ok ())),
      .service .closeKms (some (.error (.plain "socket stuck"))),
      .warning "additional failure while releasing key management service: socket stuck"] ∧
    failingClose.ending = .failed (.release "crypto engine" (.plain "engine error 2: engine busy")) := by
  have hcloses := session_closes_once (failingWorld (some (.ok ()))) 10 3 (c := owningClient) rfl
    ⟨0, ⟨[.ready], [], 0⟩⟩ [.decrypt [], .close, .encrypt "db" [], .close]
  have htrace : failingClose.trace = [.engine .close (.error (.status 2 "engine busy")),
      .service .closeMarker (some (.ok ())), .service .closeInternalClient (some (.ok ())),
      .service .closeKms (some (.error (.plain "socket stuck"))),
      .warning "additional failure while releasing key management service: socket stuck"] := by
    rfl
  refine ⟨hcloses, ?_, htrace, rfl⟩
  refine (hcloses.first [failingDecryption] owningClient failingClose _ rfl ?_).2 ?_
  · exact List.forall_mem_singleton.2 nofun
  · intro call hcall
    rw [htrace] at hcall
    simp only [List.mem_cons, List.not_mem_nil, or_false] at hcall
    rcases hcall with h | h | h | h | h <;> cases h

end Client

end FieldSeal
