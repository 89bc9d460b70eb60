import FieldSeal.Client.Session
import FieldSeal.Proofs.Client.Performing

/-!
Lifetimes of contexts over whole sessions. A context lives from its creation to its release; all calls on it and on
its decryptors fall between the two, and nothing of the next operation does.
-/

namespace FieldSeal

open FieldSeal.Action FieldSeal.Trace

namespace Event

/-- A context is created. -/
def isCreation : Event → Bool
  | .engine (.createContext _) (.ok ()) => true
  | _ => false

def isRelease : Event → Bool
  | .engine .release _ => true
  | _ => false

/-- Calls that only a living context can take, its release among them. -/
def needsContext (e : Event) : Bool :=
  e.ofContext || e.isRelease

/-- Closings have nothing to do with contexts. -/
theorem outside_of_ofClosing {e : Event} (h : e.ofClosing = true) :
    e.needsContext = false ∧ e.isCreation = false ∧ e.isRelease = false := by
  unfold ofClosing at h
  split at h <;> first | exact ⟨rfl, rfl, rfl⟩ | cases h

theorem within_of_ofContext {e : Event} (h : e.ofContext = true) :
    e.isCreation = false ∧ e.isRelease = false := by
  constructor
  · unfold isCreation
    split
    · cases h
    · rfl
  · unfold isRelease
    split
    · cases h
    · rfl

end Event

namespace Client

variable {t u before after : List Event}

/-- One lifetime after the other, with closings and refused creations between them. -/
inductive Lifetimes : List Event → Prop where
  | nil : Lifetimes []
  | closing {e : Event} {t : List Event} (he : e.ofClosing = true) (ht : Lifetimes t) : Lifetimes (e :: t)
  | refused (request : Request) (e : EngineError) {t : List Event} (ht : Lifetimes t) :
      Lifetimes (.engine (.createContext request) (.error e) :: t)
  | used (request : Request) {inner t : List Event} (hinner : ∀ e ∈ inner, e.ofContext = true)
      (ht : Lifetimes t) :
      Lifetimes (.engine (.createContext request) (.ok ()) :: (inner ++ .engine .release () :: t))

namespace Lifetimes

theorem append (ht : Lifetimes t) (hu : Lifetimes u) : Lifetimes (t ++ u) := by
  induction ht with
  | nil => exact hu
  | closing he ht ih => exact .closing he ih
  | refused request e ht ih => exact .refused request e ih
  | used request hinner ht ih =>
    rw [List.cons_append, List.append_assoc]
    exact .used request hinner ih

theorem of_closings (h : ∀ e ∈ t, e.ofClosing = true) : Lifetimes t := by
  induction t with
  | nil => exact .nil
  | cons e t ih =>
    obtain ⟨he, ht⟩ := List.forall_mem_cons.1 h
    exact .closing he (ih ht)

theorem flatMap {α : Type} {f : α → List Event} {items : List α} (h : ∀ item ∈ items, Lifetimes (f item)) :
    Lifetimes (items.flatMap f) := by
  induction items with
  | nil => exact .nil
  | cons item items ih =>
    obtain ⟨hitem, hitems⟩ := List.forall_mem_cons.1 h
    rw [List.flatMap_cons]
    exact hitem.append (ih hitems)

/-- A created context is released, and until then there are only calls that it can take. -/
theorem released (h : Lifetimes t) {asked : Request}
    (ht : t = before ++ .engine (.createContext asked) (.ok ()) :: after) :
    ∃ inner rest, after = inner ++ .engine .release () :: rest ∧ ∀ e ∈ inner, e.ofContext = true := by
  induction h generalizing before with
  | nil => exact absurd ht (by simp)
  | closing he hrest ih =>
    rcases cons_eq_split ht with ⟨-, rfl, -⟩ | ⟨rest, -, hu⟩
    · cases he
    · exact ih hu
  | refused request e hrest ih =>
    rcases cons_eq_split ht with ⟨-, he, -⟩ | ⟨rest, -, hu⟩
    · cases he
    · exact ih hu
  | @used request inner u hinner hrest ih =>
    rcases cons_eq_split ht with ⟨-, -, rfl⟩ | ⟨rest, -, hu⟩
    · exact ⟨inner, u, rfl, hinner⟩
    · rcases append_eq_split hu with ⟨later, hin, -⟩ | ⟨later, hout, -⟩
      · -- within a lifetime no context is created
        have hcreate := hinner (.engine (.createContext asked) (.ok ())) (by simp [hin])
        cases hcreate
      · rcases cons_eq_split hout with ⟨-, he, -⟩ | ⟨later, -, hu⟩
        · cases he
        · exact ih hu

/-- Every call that needs a context stands in a lifetime. -/
theorem alive (h : Lifetimes t) {e : Event} (ht : t = before ++ e :: after) (he : e.needsContext = true) :
    ∃ earlier request inner, before = earlier ++ .engine (.createContext request) (.ok ()) :: inner ∧
      ∀ x ∈ inner, x.ofContext = true := by
  induction h generalizing before with
  | nil => exact absurd ht (by simp)
  | @closing first u hclosing hrest ih =>
    rcases cons_eq_split ht with ⟨-, rfl, -⟩ | ⟨rest, rfl, hu⟩
    · rw [(Event.outside_of_ofClosing hclosing).1] at he
      cases he
    · obtain ⟨earlier, request, inner, rfl, hinner⟩ := ih hu
      exact ⟨first :: earlier, request, inner, rfl, hinner⟩
  | @refused request error u hrest ih =>
    rcases cons_eq_split ht with ⟨-, rfl, -⟩ | ⟨rest, rfl, hu⟩
    · cases he
    · obtain ⟨earlier, other, inner, rfl, hinner⟩ := ih hu
      exact ⟨_ :: earlier, other, inner, rfl, hinner⟩
  | @used request inner u hinner hrest ih =>
    rcases cons_eq_split ht with ⟨-, rfl, -⟩ | ⟨rest, rfl, hu⟩
    · cases he
    · rcases append_eq_split hu with ⟨later, rfl, -⟩ | ⟨later, hout, rfl⟩
      · -- the call is on this context, after those that precede it
        exact ⟨[], request, rest, rfl, fun x hx => hinner x (List.mem_append_left _ hx)⟩
      · rcases cons_eq_split hout with ⟨rfl, -, -⟩ | ⟨later, rfl, hlater⟩
        · -- the call is the release of this context
          rw [List.append_nil]
          exact ⟨[], request, inner, rfl, hinner⟩
        · obtain ⟨earlier, other, next, rfl, hnext⟩ := ih hlater
          refine ⟨.engine (.createContext request) (.ok ()) :: (inner ++ .engine .release () :: earlier), other,
            next, ?_, hnext⟩
          rw [List.cons_append, List.append_assoc]
          rfl

theorem counts (h : Lifetimes t) : t.countP Event.isRelease = t.countP Event.isCreation := by
  induction h with
  | nil => rfl
  | closing he ht ih =>
    obtain ⟨-, hcreation, hrelease⟩ := Event.outside_of_ofClosing he
    rw [List.countP_cons_of_neg (Bool.eq_false_iff.1 hrelease),
      List.countP_cons_of_neg (Bool.eq_false_iff.1 hcreation), ih]
  | refused request e ht ih => exact ih
  | @used request inner u hinner ht ih =>
    have hcreations : inner.countP Event.isCreation = 0 :=
      List.countP_eq_zero.2 fun e he => Bool.eq_false_iff.1 (Event.within_of_ofContext (hinner e he)).1
    have hreleases : inner.countP Event.isRelease = 0 :=
      List.countP_eq_zero.2 fun e he => Bool.eq_false_iff.1 (Event.within_of_ofContext (hinner e he)).2
    simp only [List.countP_cons, List.countP_append, hcreations, hreleases, ih]
    show 0 + (u.countP Event.isCreation + 1) + 0 = 0 + (u.countP Event.isCreation + 0) + 1
    omega

end Lifetimes

/-- What an operation does with contexts: it has none, is refused one, or uses one. A context is not released
yet only while the operation is still under way. -/
inductive Lifetime {α : Type} : List Event → Ending ClientError α → Prop where
  | without {t : List Event} {ending : Ending ClientError α} (h : ∀ e ∈ t, e.ofClosing = true) :
      Lifetime t ending
  | refused (request : Request) (e : EngineError) {ending : Ending ClientError α} (hends : ending ≠ .expired) :
      Lifetime [.engine (.createContext request) (.error e)] ending
  | used (request : Request) {inner : List Event} {ending : Ending ClientError α}
      (hinner : ∀ e ∈ inner, e.ofContext = true) (hends : ending ≠ .unfinished)
      (hcut : ending = .expired → EndsCut inner) :
      Lifetime (.engine (.createContext request) (.ok ()) :: (inner ++ [.engine .release ()])) ending
  | running (request : Request) {inner : List Event} (hinner : ∀ e ∈ inner, e.ofContext = true) :
      Lifetime (.engine (.createContext request) (.ok ()) :: inner) .unfinished

variable {σ : Type} {setting : Setting σ}

theorem Protocol.lifetime {c : Client} {op : Operation} {n : Nat} {final : Ending ClientError Document}
    (request : Request) (h : Protocol setting c op.database n t final) :
    Lifetime (.engine (.createContext request) (.ok ()) :: (t ++ released final)) (op.conclude final) := by
  cases final with
  | done output =>
    -- the answer may be refused after the context has given its output
    have hends : op.conclude (.done output) ≠ .unfinished ∧ op.conclude (.done output) ≠ .expired := by
      show Ending.ofExcept (op.answer output) ≠ .unfinished ∧ Ending.ofExcept (op.answer output) ≠ .expired
      cases op.answer output <;> exact ⟨nofun, nofun⟩
    exact .used request h.ofContext hends.1 fun hexpired => absurd hexpired hends.2
  | failed e => exact .used request h.ofContext nofun nofun
  | expired => exact .used request h.ofContext nofun fun _ => h.endsCut rfl
  | unfinished =>
    rw [released, List.append_nil]
    exact .running request h.ofContext

theorem yields_lifetime (c : Client) (op : Operation) : Yields setting (c.perform op) Lifetime := by
  cases hrequest : op.request? with
  | none =>
    cases op with
    | close => exact (yields_close c).mono fun t ending h => .without h.only
    | _ => cases hrequest
  | some request =>
    refine (yields_perform c op hrequest).mono fun t ending h => ?_
    cases h with
    | early hexpired hunfinished => exact .without (List.forall_mem_nil _)
    | executed h =>
      cases h with
      | closed hclosed => exact .without (List.forall_mem_nil _)
      | rejected hopen e => exact .refused request e nofun
      | driven hopen hrun => exact ((yields_drive c op.database).of_hasRun hrun).lifetime request

theorem Lifetime.lifetimes {α : Type} {ending : Ending ClientError α} (h : Lifetime t ending)
    (hends : ending ≠ .unfinished) : Lifetimes t := by
  cases h with
  | without h => exact .of_closings h
  | refused request e hexpired => exact .refused request e .nil
  | used request hinner hends hcut => exact .used request hinner .nil
  | running request hinner => exact absurd rfl hends

/-- After a caller abandons an operation that has a context, the release is all that follows the call that
hung. -/
theorem Lifetime.abandoned {α : Type} {ending : Ending ClientError α} (h : Lifetime t ending)
    (hexpired : ending = .expired) {request : Request}
    (ht : t = before ++ .engine (.createContext request) (.ok ()) :: after) :
    ∃ inner call, after = inner ++ [.service call none, .engine .release ()] := by
  cases h with
  | without h =>
    have hcreate := h (.engine (.createContext request) (.ok ())) (by simp [ht])
    cases hcreate
  | refused asked e hends => exact absurd hexpired hends
  | @used asked inner _ hinner hends hcut =>
    rcases cons_eq_split ht with ⟨-, -, rfl⟩ | ⟨rest, -, hrest⟩
    · obtain ⟨calls, call, rfl⟩ := hcut hexpired
      exact ⟨calls, call, by rw [List.append_assoc]; rfl⟩
    · rcases append_eq_split hrest with ⟨later, hin, -⟩ | ⟨later, hout, -⟩
      · have hcreate := hinner (.engine (.createContext request) (.ok ())) (by simp [hin])
        cases hcreate
      · obtain ⟨-, he, -⟩ := singleton_eq_split hout
        cases he
  | running asked hinner => cases hexpired

/-- While an operation is under way its context lives. -/
theorem Lifetime.underway {α : Type} {ending : Ending ClientError α} (h : Lifetime t ending)
    (hunfinished : ending = .unfinished) {request : Request}
    (ht : t = before ++ .engine (.createContext request) (.ok ()) :: after) : ∀ e ∈ after, e.ofContext = true := by
  cases h with
  | without h =>
    have hcreate := h (.engine (.createContext request) (.ok ())) (by simp [ht])
    cases hcreate
  | refused asked e hends =>
    obtain ⟨-, he, -⟩ := singleton_eq_split ht
    cases he
  | used asked hinner hends hcut => exact absurd hunfinished hends
  | running asked hinner =>
    rcases cons_eq_split ht with ⟨-, -, rfl⟩ | ⟨rest, -, hrest⟩
    · exact hinner
    · exact fun e he => hinner e (by simp [hrest, he])

/-- The steps of a session are runs of its operations, each of the client that the step before left. -/
theorem session_lifetime (world : World σ) (patience fuel : Nat) (c : Client) (scene : Scene σ)
    (ops : List Operation) :
    ∀ step ∈ session world patience fuel c scene ops, Lifetime step.run.trace step.run.ending := by
  induction ops generalizing c scene with
  | nil => exact List.forall_mem_nil _
  | cons op ops ih => exact List.forall_mem_cons.2 ⟨yields_lifetime c op scene, ih _ _⟩

/-- The events of steps in a row. -/
def traceOf (steps : List (Step σ)) : List Event :=
  steps.flatMap fun step => step.run.trace

/-- What holds of contexts in a trace: a context is released once and for all, every call that needs a context
falls into the lifetime of one, and one that was refused is not released. -/
structure ReleasedOnce (t : List Event) : Prop where
  released : ∀ before request after, t = before ++ .engine (.createContext request) (.ok ()) :: after →
    ∃ inner rest, after = inner ++ .engine .release () :: rest ∧ ∀ e ∈ inner, e.ofContext = true
  alive : ∀ before e after, t = before ++ e :: after → e.needsContext = true →
    ∃ earlier request inner, before = earlier ++ .engine (.createContext request) (.ok ()) :: inner ∧
      ∀ x ∈ inner, x.ofContext = true
  once : t.countP Event.isRelease = t.countP Event.isCreation
  refused : ∀ before request e after, t = before ++ .engine (.createContext request) (.error e) :: after →
    ∀ inner rest, after = inner ++ .engine .release () :: rest → ∃ x ∈ inner, x.isCreation = true

theorem Lifetimes.releasedOnce (h : Lifetimes t) : ReleasedOnce t where
  released _ _ _ ht := h.released ht
  alive _ _ _ ht he := h.alive ht he
  once := h.counts
  refused := by
    intro before request e after ht inner rest hafter
    -- the release needs a living context, and the refused creation made none
    have hrelease : t = (before ++ .engine (.createContext request) (.error e) :: inner) ++
        .engine .release () :: rest := by
      rw [ht, hafter, List.append_assoc]
      rfl
    obtain ⟨earlier, other, living, hliving, hcalls⟩ := h.alive hrelease rfl
    rcases append_eq_split hliving.symm with ⟨later, -, hinner⟩ | ⟨later, hlater, -⟩
    · exact ⟨.engine (.createContext other) (.ok ()), by simp [hinner], rfl⟩
    · -- the refused creation would be a call of a living context
      rcases cons_eq_split hlater with ⟨-, he, -⟩ | ⟨later, -, hin⟩
      · cases he
      · have hcreate := hcalls (.engine (.createContext request) (.error e)) (by simp [hin])
        cases hcreate

/-- In every part of a session that is over, contexts are released once and before the next operation, and
nothing follows the call that hung but the release. An operation that is still under way has not released its
context. -/
theorem session_releases_once (world : World σ) (patience fuel : Nat) (c : Client) (scene : Scene σ)
    (ops : List Operation) {part : List (Step σ)}
    (hpart : part <:+: session world patience fuel c scene ops)
    (hends : ∀ step ∈ part, step.run.ending ≠ .unfinished) :
    ReleasedOnce (traceOf part) ∧
      (∀ step ∈ part, ReleasedOnce step.run.trace ∧
        (step.run.ending = .expired → ∀ before request after,
          step.run.trace = before ++ .engine (.createContext request) (.ok ()) :: after →
            ∃ inner call, after = inner ++ [.service call none, .engine .release ()])) ∧
      ∀ step ∈ session world patience fuel c scene ops, step.run.ending = .unfinished →
        ∀ before request after, step.run.trace = before ++ .engine (.createContext request) (.ok ()) :: after →
          ∀ e ∈ after, e.ofContext = true := by
  have hlifetime := session_lifetime world patience fuel c scene ops
  have hlifetimes : ∀ step ∈ part, Lifetimes step.run.trace := by
    intro step hstep
    exact (hlifetime step (hpart.subset hstep)).lifetimes (hends step hstep)
  refine ⟨(Lifetimes.flatMap hlifetimes).releasedOnce, ?_, ?_⟩
  · intro step hstep
    refine ⟨(hlifetimes step hstep).releasedOnce, ?_⟩
    intro hexpired before request after ht
    exact (hlifetime step (hpart.subset hstep)).abandoned hexpired ht
  · intro step hstep hunfinished before request after ht
    exact (hlifetime step hstep).underway hunfinished ht

/-- An operation whose caller gives up on a marker that never answers. -/
def scriptedEncryption : Step Script :=
  step (.automatic .custom {} false ⟨false⟩) scripted 10 3 ⟨0, ⟨[.needsMarkings], [], 0⟩⟩ (.encrypt "db" [])

/-- The same client is closed, and used once more. -/
def scriptedSession : List (Step Script) :=
  scriptedEncryption ::
    session scripted 10 3 scriptedEncryption.next scriptedEncryption.run.scene [.close, .decrypt []]

theorem session_releases_once_scripted :
    ReleasedOnce (traceOf scriptedSession) ∧ scriptedEncryption ∈ scriptedSession ∧
      ∃ inner call, [.engine .phase (.ok .needsMarkings), .engine .operation (.ok []),
        Event.service (.mark "db" []) none, .engine .release ()] =
          inner ++ [.service call none, .engine .release ()] := by
  have hends : ∀ step ∈ scriptedSession, step.run.ending ≠ .unfinished :=
    List.forall_mem_cons.2 ⟨nofun, List.forall_mem_cons.2 ⟨nofun, List.forall_mem_cons.2
      ⟨nofun, List.forall_mem_nil _⟩⟩⟩
  have hmem : scriptedEncryption ∈ scriptedSession := List.mem_cons_self
  have htrace : scriptedEncryption.run.trace = [] ++ .engine (.createContext (.encryptCommand "db" [])) (.ok ()) ::
      [.engine .phase (.ok .needsMarkings), .engine .operation (.ok []),
        .service (.mark "db" []) none, .engine .release ()] := by
    rfl
  have hexpired : scriptedEncryption.run.ending = .expired := by rfl
  have hreleases := session_releases_once scripted 10 3 (.automatic .custom {} false ⟨false⟩)
    ⟨0, ⟨[.needsMarkings], [], 0⟩⟩ [.encrypt "db" [], .close, .decrypt []] List.infix_rfl hends
  exact ⟨hreleases.1, hmem, (hreleases.2.1 _ hmem).2 hexpired _ _ _ htrace⟩

end Client

end FieldSeal
