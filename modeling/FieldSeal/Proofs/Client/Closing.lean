import FieldSeal.Client.Close
import FieldSeal.Proofs.Interaction.CallsOf

/-!
Runs of a close. The resources that a client owns are closed in their order, each whatever the others answered;
after the last answer the failures among them decide how the close ends. A call that is cut off is the last one.
-/

namespace FieldSeal

open FieldSeal.Action FieldSeal.Trace

namespace Event

/-- The resource that a call closes. -/
def closes? : Event → Option Client.Resource
  | .engine .close _ => some .engine
  | .service .closeMarker _ => some .marker
  | .service .closeInternalClient _ => some .internalClient
  | .service .closeKms _ => some .keyService
  | _ => none

/-- Calls that release what a client owns, and warnings. -/
def ofClosing : Event → Bool
  | .engine .close _ => true
  | .service .closeMarker _ | .service .closeInternalClient _ | .service .closeKms _ => true
  | .warning _ => true
  | _ => false

theorem ofClosing_of_closes? {e : Event} {resource : Client.Resource} (h : e.closes? = some resource) :
    e.ofClosing = true := by
  unfold closes? at h
  split at h <;> first | rfl | cases h

end Event

namespace Client

variable {σ ε : Type} {setting : Setting σ} {c : Client}

namespace Resource

/-- What a resource says when it is closed. -/
@[reducible]
def Answer : Resource → Type
  | .engine => Except EngineError Unit
  | .marker => Except Fault Unit
  | .internalClient => Except Fault Unit
  | .keyService => Except Fault Unit

def inOrder : List Resource :=
  [.engine, .marker, .internalClient, .keyService]

end Resource

/-- A resource that was closed, and what it said. -/
structure Answered where
  resource : Resource
  answer : resource.Answer

/-- Every client has an engine and a key service, the rest belongs to auto-encryption. -/
def owns (c : Client) : Resource → Bool
  | .engine => true
  | .marker => c.isAuto
  | .internalClient => c.auto.any AutoEncryption.internalClient
  | .keyService => true

def owned (c : Client) : List Resource :=
  Resource.inOrder.filter c.owns

theorem resources_eq_owned (c : Client) : c.resources = c.owned := by
  obtain ⟨keyService, credentials, bypass, auto, closed⟩ := c
  rcases auto with _ | ⟨_ | _⟩ <;> rfl

/-- The service call that closes a resource. The engine answers at once, and a stream service is closed without
a call. -/
def closingCall? (c : Client) : Resource → Option ServiceCall
  | .engine => none
  | .marker => some .closeMarker
  | .internalClient => some .closeInternalClient
  | .keyService =>
    match c.keyService with
    | .custom => some .closeKms
    | .stream _ => none

/-- The call that an answer belongs to. -/
def closing (c : Client) : Answered → List Event
  | ⟨.engine, answer⟩ => [.engine .close answer]
  | ⟨.marker, answer⟩ => [.service .closeMarker (some answer)]
  | ⟨.internalClient, answer⟩ => [.service .closeInternalClient (some answer)]
  | ⟨.keyService, answer⟩ =>
    match c.keyService with
    | .custom => [.service .closeKms (some answer)]
    | .stream _ => []

/-- Closing a stream service cannot fail. -/
def outcome (c : Client) : Answered → Except Fault Unit
  | ⟨.engine, answer⟩ => answer.mapError EngineError.fault
  | ⟨.marker, answer⟩ => answer
  | ⟨.internalClient, answer⟩ => answer
  | ⟨.keyService, answer⟩ =>
    match c.keyService with
    | .custom => answer
    | .stream _ => .ok ()

def failure? (c : Client) (a : Answered) : Option (Resource × Fault) :=
  match c.outcome a with
  | .ok () => none
  | .error fault => some (a.resource, fault)

/-- The failures among the answers, in the order of the answers. -/
def failures (c : Client) (answers : List Answered) : List (Resource × Fault) :=
  answers.filterMap c.failure?

/-- What is logged of a failure that is not returned. -/
def warning (failure : Resource × Fault) : Event :=
  .warning s!"additional failure while releasing {failure.1.name}: {failure.2.message}"

/-- A close is a success where nothing failed, otherwise it returns the first failure. -/
def verdict : List (Resource × Fault) → Ending ClientError Unit
  | [] => .done ()
  | (resource, fault) :: _ => .failed (.release resource.name fault)

theorem failures_cons (a : Answered) (answers : List Answered) :
    c.failures (a :: answers) =
      match c.outcome a with
      | .ok () => c.failures answers
      | .error fault => (a.resource, fault) :: c.failures answers := by
  unfold failures
  rw [List.filterMap_cons, failure?]
  cases c.outcome a <;> rfl

/-- One release: an answer, or a call that is cut off. -/
inductive Release (c : Client) : Resource → List Event → Ending ε (Except Fault Unit) → Prop where
  | answered (a : Answered) : Release c a.resource (c.closing a) (.done (c.outcome a))
  | cut {resource : Resource} {call : ServiceCall} (hcall : c.closingCall? resource = some call) :
      Release c resource [.service call none] .expired

/-- Releases in a row: all are answered, or those before the one that hangs. -/
inductive Releases (c : Client) (resources : List Resource) :
    List Event → Ending ε (List (Resource × Fault)) → Prop where
  | answered (answers : List Answered) (hresources : answers.map Answered.resource = resources) :
      Releases c resources (answers.flatMap c.closing) (.done (c.failures answers))
  | cut (answers : List Answered) {resource : Resource} {rest : List Resource} {call : ServiceCall}
      (hresources : resources = answers.map Answered.resource ++ resource :: rest)
      (hcall : c.closingCall? resource = some call) :
      Releases c resources (answers.flatMap c.closing ++ [.service call none]) .expired

/-- A close of an open client closes what it owns, up to a call that is cut off. -/
inductive Closes (c : Client) : List Event → Ending ClientError Unit → Prop where
  | again (hclosed : c.closed = true) : Closes c [] (.done ())
  | answered (hopen : c.closed = false) (answers : List Answered)
      (howned : answers.map Answered.resource = c.owned) :
      Closes c (answers.flatMap c.closing ++ (c.failures answers).tail.map warning) (verdict (c.failures answers))
  | cut (hopen : c.closed = false) (answers : List Answered) {resource : Resource} {rest : List Resource}
      {call : ServiceCall} (howned : c.owned = answers.map Answered.resource ++ resource :: rest)
      (hcall : c.closingCall? resource = some call) :
      Closes c (answers.flatMap c.closing ++ [.service call none]) .expired

theorem yields_release (c : Client) (resource : Resource) :
    Yields setting (c.release resource : Action σ ε _) (Release c resource) := by
  cases resource with
  | engine => exact yields_ask fun answer => yields_pure (.answered ⟨.engine, answer⟩)
  | marker =>
    rw [← bind_pure (c.release .marker)]
    exact yields_await (.cut rfl) fun answer => yields_pure (.answered ⟨.marker, answer⟩)
  | internalClient =>
    rw [← bind_pure (c.release .internalClient)]
    exact yields_await (.cut rfl) fun answer => yields_pure (.answered ⟨.internalClient, answer⟩)
  | keyService =>
    obtain ⟨keyService, credentials, bypass, auto, closed⟩ := c
    cases keyService with
    | custom =>
      rw [← bind_pure (Client.release _ .keyService)]
      exact yields_await (.cut rfl) fun answer => yields_pure (.answered ⟨.keyService, answer⟩)
    | stream service => exact yields_pure (.answered ⟨.keyService, .ok ()⟩)

namespace Releases

variable {rest : List Resource} {t : List Event}

theorem cons_answered {failures : List (Resource × Fault)} (a : Answered)
    (h : Releases c rest t (.done failures : Ending ε _)) :
    Releases c (a.resource :: rest) (c.closing a ++ t) (.done (match c.outcome a with
      | .ok () => failures
      | .error fault => (a.resource, fault) :: failures) : Ending ε _) := by
  cases h with
  | answered answers hresources =>
    rw [← failures_cons]
    exact answered (a :: answers) (congrArg (a.resource :: ·) hresources)

theorem cons_cut (a : Answered) (h : Releases c rest t (.expired : Ending ε _)) :
    Releases c (a.resource :: rest) (c.closing a ++ t) (.expired : Ending ε _) := by
  cases h with
  | cut answers hresources hcall =>
    rw [← List.append_assoc]
    exact cut (a :: answers) (congrArg (a.resource :: ·) hresources) hcall

end Releases

theorem yields_releaseAll (c : Client) (resources : List Resource) :
    Yields setting (c.releaseAll resources : Action σ ε _) (Releases c resources) := by
  induction resources with
  | nil => exact yields_pure (.answered [] rfl)
  | cons resource rest ih =>
    refine (yields_release c resource).bind ?_ ?_
    · rintro t - ⟨a⟩
      refine ih.bind ?_ ?_
      · -- the rest is released whatever this resource answered; its failure goes in front of those of the rest
        intro u failures hu
        have hall := hu.cons_answered a
        cases houtcome : c.outcome a with
        | ok _ =>
          rw [houtcome] at hall
          exact yields_pure (by simpa using hall)
        | error fault =>
          rw [houtcome] at hall
          exact yields_pure (by simpa using hall)
      · intro u stop hu
        cases stop with
        | expired => exact hu.cons_cut a
        | _ => cases hu
    · intro t stop ht
      cases stop with
      | expired =>
        cases ht with
        | cut hcall => exact .cut [] rfl hcall
      | _ => cases ht

theorem yields_warnAll (failures : List (Resource × Fault)) :
    Yields setting (warnAll failures : Action σ ε Unit) fun t ending =>
      t = failures.map warning ∧ ending = .done () := by
  induction failures with
  | nil => exact yields_pure ⟨rfl, rfl⟩
  | cons failure rest ih =>
    intro scene
    obtain ⟨htrace, hending⟩ := ih scene
    exact ⟨congrArg (warning failure :: ·) htrace, hending⟩

theorem yields_closes (c : Client) : Yields setting c.close (Closes c) := by
  unfold close
  cases hclosed : c.closed with
  | true => exact yields_pure (.again hclosed)
  | false =>
    rw [if_neg Bool.false_ne_true, resources_eq_owned]
    refine (yields_releaseAll c c.owned).bind ?_ ?_
    · intro t failures ht
      cases ht with
      | answered answers howned =>
        have hend := Closes.answered hclosed answers howned
        cases hfailures : c.failures answers with
        | nil =>
          rw [hfailures] at hend
          exact yields_pure hend
        | cons failure rest =>
          rw [hfailures] at hend
          refine (yields_warnAll rest).bind ?_ ?_
          · rintro u - ⟨rfl, -⟩
            exact yields_fail (by simpa [verdict] using hend)
          · rintro u stop ⟨-, hstop⟩
            cases stop <;> cases hstop
    · -- the releases fail only by being cut off, and then nothing is logged or returned
      intro t stop ht
      cases stop with
      | expired =>
        cases ht with
        | cut answers howned hcall => exact .cut hclosed answers howned hcall
      | _ => cases ht

/-- Resources that are closed by a call. -/
def closesByCall (c : Client) : Resource → Bool
  | .keyService =>
    match c.keyService with
    | .custom => true
    | .stream _ => false
  | _ => true

/-- The resources that calls close, in the order of the calls. -/
def closings (t : List Event) : List Resource :=
  t.filterMap Event.closes?

@[simp] theorem closings_append (t u : List Event) : closings (t ++ u) = closings t ++ closings u :=
  List.filterMap_append

theorem closings_closing (c : Client) (a : Answered) :
    closings (c.closing a) = [a.resource].filter c.closesByCall := by
  obtain ⟨keyService, credentials, bypass, auto, closed⟩ := c
  obtain ⟨resource, answer⟩ := a
  cases keyService <;> cases resource <;> rfl

theorem closings_answers (c : Client) (answers : List Answered) :
    closings (answers.flatMap c.closing) = (answers.map Answered.resource).filter c.closesByCall := by
  induction answers with
  | nil => rfl
  | cons a answers ih =>
    rw [List.flatMap_cons, closings_append, closings_closing, ih, ← List.filter_append]
    rfl

theorem closings_warnings (failures : List (Resource × Fault)) : closings (failures.map warning) = [] := by
  induction failures with
  | nil => rfl
  | cons failure rest ih => exact ih

theorem closes?_of_closingCall? {resource : Resource} {call : ServiceCall}
    (hcall : c.closingCall? resource = some call) :
    (Event.service call none).closes? = some resource ∧ c.closesByCall resource = true := by
  obtain ⟨keyService, credentials, bypass, auto, closed⟩ := c
  cases keyService <;> cases resource <;> cases hcall <;> exact ⟨rfl, rfl⟩

theorem closings_answered {answers : List Answered} (failures : List (Resource × Fault))
    (howned : answers.map Answered.resource = c.owned) :
    closings (answers.flatMap c.closing ++ failures.map warning) = c.owned.filter c.closesByCall := by
  rw [closings_append, closings_answers, closings_warnings, List.append_nil, howned]

theorem closings_cut {resource : Resource} {call : ServiceCall} (answers : List Answered)
    (hcall : c.closingCall? resource = some call) :
    closings (answers.flatMap c.closing ++ [.service call none]) =
      (answers.map Answered.resource ++ [resource]).filter c.closesByCall := by
  obtain ⟨hcloses, hbycall⟩ := closes?_of_closingCall? hcall
  rw [closings_append, closings_answers, List.filter_append, List.filter_cons_of_pos hbycall, List.filter_nil,
    closings, List.filterMap_cons_some hcloses, List.filterMap_nil]

theorem closes?_of_mem_closing {a : Answered} {e : Event} (he : e ∈ c.closing a) :
    e.closes? = some a.resource := by
  obtain ⟨keyService, credentials, bypass, auto, closed⟩ := c
  obtain ⟨resource, answer⟩ := a
  cases keyService <;> cases resource <;> cases he <;> first | rfl | contradiction

namespace Closes

variable {t : List Event} {ending : Ending ClientError Unit}

/-- No resource is skipped as long as the close goes on, and none is closed twice. -/
theorem closings_prefix (h : Closes c t ending) : closings t <+: c.owned.filter c.closesByCall := by
  cases h with
  | again hclosed => exact List.nil_prefix
  | answered hopen answers howned => exact ⟨[], by rw [closings_answered _ howned, List.append_nil]⟩
  | @cut hopen answers resource rest call howned hcall =>
    have hprefix : answers.map Answered.resource ++ [resource] <+: c.owned :=
      ⟨rest, by rw [howned, List.append_assoc, List.singleton_append]⟩
    rw [closings_cut answers hcall]
    exact hprefix.filter c.closesByCall

theorem callsOf (h : Closes c t ending) : CallsOf Event.ofClosing t ending := by
  have hanswers : ∀ answers : List Answered, ∀ e ∈ answers.flatMap c.closing, e.ofClosing = true := by
    intro answers e he
    obtain ⟨a, -, ha⟩ := List.mem_flatMap.1 he
    exact Event.ofClosing_of_closes? (closes?_of_mem_closing ha)
  cases h with
  | again hclosed => exact .nil nofun nofun
  | answered hopen answers howned =>
    have hends : verdict (c.failures answers) ≠ .expired ∧ verdict (c.failures answers) ≠ .unfinished := by
      cases c.failures answers <;> exact ⟨nofun, nofun⟩
    refine ⟨List.forall_mem_append.2 ⟨hanswers answers, ?_⟩, fun h => absurd h hends.1, hends.2⟩
    intro e he
    obtain ⟨failure, -, rfl⟩ := List.mem_map.1 he
    rfl
  | @cut hopen answers resource rest call howned hcall =>
    refine ⟨List.forall_mem_append.2 ⟨hanswers answers, ?_⟩, fun _ => ⟨_, call, rfl⟩, nofun⟩
    exact List.forall_mem_singleton.2 (Event.ofClosing_of_closes? (closes?_of_closingCall? hcall).1)

end Closes

theorem yields_close (c : Client) : Yields setting c.close (CallsOf Event.ofClosing) :=
  (yields_closes c).mono fun _ _ h => h.callsOf

theorem nodup_owned (c : Client) : c.owned.Nodup :=
  List.Pairwise.filter _ (by decide)

end Client

end FieldSeal
