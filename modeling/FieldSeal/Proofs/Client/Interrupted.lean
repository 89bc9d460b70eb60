import FieldSeal.Proofs.Client.Closed

/-!
Closes that are interrupted. A client counts as closed from the start of its first close. If that close is abandoned
while a resource hangs, later closes find nothing to do and succeed, though the resources behind that one were never
closed.
-/

namespace FieldSeal

open FieldSeal.Action FieldSeal.Trace

namespace Client

variable {σ : Type} {c d : Client} {t u : List Event} {resource : Resource} {earlier rest : List Resource}

/-- A client as it is made, with nothing closed. -/
structure Fresh (c : Client) : Prop where
  client : c.closed = false
  service : ∀ service, c.keyService = .stream service → service.closed = false

/-- The close of a resource was attempted, with or without success: there is a call that closes it, or it is a
stream service that the client has closed. -/
def Attempted (t : List Event) (d : Client) (resource : Resource) : Prop :=
  resource ∈ closings t ∨
    resource = .keyService ∧ ∃ service, d.keyService = .stream service ∧ service.closed = true

/-- No close hung at the command marker or at the internal client, which others come after. -/
def Uninterrupted (t : List Event) : Prop :=
  .service .closeMarker none ∉ t ∧ .service .closeInternalClient none ∉ t

theorem attempted_congr (h : closings t = closings u) : Attempted t d resource ↔ Attempted u d resource := by
  rw [Attempted, Attempted, h]

theorem uninterrupted_append_iff (h : closings t = []) : Uninterrupted (t ++ u) ↔ Uninterrupted u := by
  have hnone := List.filterMap_eq_nil_iff.1 h
  have hmarker : .service .closeMarker none ∉ t := fun he => nomatch hnone _ he
  have hclient : .service .closeInternalClient none ∉ t := fun he => nomatch hnone _ he
  simp [Uninterrupted, hmarker, hclient]

theorem getLast?_owned (c : Client) : c.owned.getLast? = some .keyService := by
  obtain ⟨keyService, credentials, bypass, auto, closed⟩ := c
  rcases auto with _ | ⟨_ | _⟩ <;> rfl

/-- The key service is the last to be closed. -/
theorem keyService_mem_of_owned (h : c.owned = earlier ++ resource :: rest) : .keyService ∈ resource :: rest := by
  have hlast := getLast?_owned c
  rw [h, List.getLast?_append, List.getLast?_cons, Option.some_or, ← List.getLast?_cons] at hlast
  exact List.mem_of_getLast? hlast

theorem notMem_of_owned (h : c.owned = earlier ++ resource :: rest) :
    ∀ later ∈ rest, later ∉ earlier ++ [resource] := by
  have hnodup := nodup_owned c
  rw [h, List.append_cons, List.nodup_append] at hnodup
  exact fun later hlater hmem => hnodup.2.2 later hmem later hlater rfl

theorem eq_nil_of_owned (h : c.owned = earlier ++ .keyService :: rest) : rest = [] := by
  cases rest with
  | nil => rfl
  | cons next rest =>
    have hmem : Resource.keyService ∈ next :: rest := by
      rw [List.append_cons] at h
      exact keyService_mem_of_owned h
    exact absurd (by simp) (notMem_of_owned h _ hmem)

theorem keyService_of_not_closesByCall (h : c.closesByCall resource = false) :
    resource = .keyService ∧ ∃ service, c.keyService = .stream service := by
  obtain ⟨keyService, credentials, bypass, auto, closed⟩ := c
  cases keyService <;> cases resource <;> cases h
  exact ⟨rfl, _, rfl⟩

/-- Where all calls were made, a stream service that is closed is all that is missing. -/
theorem attempted_of_closings (h : closings t = c.owned.filter c.closesByCall)
    (hservice : ∀ service, c.keyService = .stream service → d.keyService = .stream service.close) :
    ∀ resource ∈ c.owned, Attempted t d resource := by
  intro resource hresource
  cases hcall : c.closesByCall resource with
  | true =>
    left
    rw [h]
    exact List.mem_filter.2 ⟨hresource, hcall⟩
  | false =>
    obtain ⟨hlast, service, hstream⟩ := keyService_of_not_closesByCall hcall
    exact .inr ⟨hlast, service.close, hservice service hstream, rfl⟩

theorem notMem_closings (c : Client) (answers : List Answered) (call : ServiceCall) :
    .service call none ∉ answers.flatMap c.closing := by
  intro hcall
  obtain ⟨⟨resource, answer⟩, -, ha⟩ := List.mem_flatMap.1 hcall
  obtain ⟨keyService, credentials, bypass, auto, closed⟩ := c
  cases keyService <;> cases resource <;> cases ha <;> contradiction

theorem notMem_answered (c : Client) (answers : List Answered) (failures : List (Resource × Fault))
    (call : ServiceCall) : .service call none ∉ answers.flatMap c.closing ++ failures.map warning := by
  intro hcall
  rcases List.mem_append.1 hcall with hcall | hcall
  · exact notMem_closings c answers call hcall
  · obtain ⟨failure, -, hfailure⟩ := List.mem_map.1 hcall
    cases hfailure

section Hanging

variable {answers : List Answered} {call : ServiceCall} (hcall : c.closingCall? resource = some call)
include hcall

theorem uninterrupted_cut_iff :
    Uninterrupted (answers.flatMap c.closing ++ [.service call none]) ↔ resource = .keyService := by
  obtain ⟨hcloses, -⟩ := closes?_of_closingCall? hcall
  constructor
  · rintro ⟨hmarker, hclient⟩
    cases resource with
    | engine => cases hcall
    | marker =>
      cases hcall
      exact absurd (List.mem_append_right _ List.mem_cons_self) hmarker
    | internalClient =>
      cases hcall
      exact absurd (List.mem_append_right _ List.mem_cons_self) hclient
    | keyService => rfl
  · rintro rfl
    have hcut : ∀ other, .service other none ∈ answers.flatMap c.closing ++ [.service call none] →
        (Event.service other none).closes? = some .keyService := by
      intro other hother
      rcases List.mem_append.1 hother with hother | hother
      · exact absurd hother (notMem_closings c answers other)
      · rw [List.mem_singleton.1 hother]
        exact hcloses
    constructor <;> intro h <;> cases hcut _ h

/-- Behind the resource that hangs there is the key service, unless it is the one that hangs. -/
theorem not_attempted_of_cut (hfresh : c.Fresh) (hlast : resource ≠ .keyService)
    (howned : c.owned = answers.map Answered.resource ++ resource :: rest) :
    ¬ Attempted (answers.flatMap c.closing ++ [.service call none]) { c with closed := true } .keyService := by
  rintro (hcalled | ⟨-, service, hstream, hclosed⟩)
  · have hrest : .keyService ∈ rest :=
      (List.mem_cons.1 (keyService_mem_of_owned howned)).resolve_left (Ne.symm hlast)
    rw [closings_cut answers hcall] at hcalled
    exact notMem_of_owned howned _ hrest (List.mem_filter.1 hcalled).1
  · have hkept : c.keyService = .stream service := hstream
    simp [hfresh.service service hkept] at hclosed

end Hanging

/-- Whether a first close gets to all resources is decided by where it hangs. -/
theorem Closes.attempted_iff {run : Run σ ClientError Unit} (h : Closes c run.trace run.ending) (hfresh : c.Fresh) :
    (∀ resource ∈ c.owned, Attempted run.trace (Step.mk c .close run).next resource) ↔
      Uninterrupted run.trace := by
  obtain ⟨ending, t, scene⟩ := run
  cases h with
  | again hclosed => simp [hfresh.client] at hclosed
  | answered hopen answers howned =>
    have hcut := notMem_answered c answers (c.failures answers).tail
    refine iff_of_true (attempted_of_closings (closings_answered _ howned) ?_) ⟨hcut _, hcut _⟩
    intro service hstream
    cases c.failures answers <;> simp [Step.next, after, hopen, hstream, KeyService.close]
  | @cut hopen answers resource rest call howned hcall =>
    refine Iff.trans ?_ (uninterrupted_cut_iff hcall).symm
    constructor
    · intro hall
      refine Decidable.byContradiction fun hlast => ?_
      have hmem : .keyService ∈ c.owned := List.mem_of_getLast? (getLast?_owned c)
      exact not_attempted_of_cut hcall hfresh hlast howned (hall _ hmem)
    · rintro rfl
      obtain rfl := eq_nil_of_owned howned
      refine attempted_of_closings ?_ ?_
      · rw [howned]
        exact closings_cut answers hcall
      · intro service hstream
        simp [closingCall?, hstream] at hcall

theorem Closes.uninterrupted {result : Except ClientError Unit} (h : Closes c t (.ofExcept result)) :
    Uninterrupted t := by
  generalize hreturns : Ending.ofExcept result = ending at h
  cases h with
  | again hclosed => exact ⟨List.not_mem_nil, List.not_mem_nil⟩
  | answered hopen answers howned => exact ⟨notMem_answered c answers _ _, notMem_answered c answers _ _⟩
  | cut hopen answers howned hcall => cases result <;> cases hreturns

namespace Lifecycle

variable {steps before after : List (Step σ)} {run : Run σ ClientError Unit}

theorem attempted_iff (h : Lifecycle c steps) (hfresh : c.Fresh) {result : Except ClientError Unit}
    (hsteps : steps = before ++ ⟨d, .close, run⟩ :: after) (hreturns : run.ending = .ofExcept result) :
    (∀ resource ∈ c.owned, Attempted (traceOf before ++ run.trace) (Step.mk d .close run).next resource) ↔
      Uninterrupted (traceOf before) := by
  -- along the session; only the first close makes calls that close anything
  induction h generalizing before with
  | nil => exact absurd hsteps (by simp)
  | @used step rest hclient hop htrace hrest ih =>
    rcases cons_eq_split hsteps with ⟨-, rfl, -⟩ | ⟨earlier, rfl, hu⟩
    · exact absurd rfl hop
    · rw [traceOf_cons, uninterrupted_append_iff htrace, ← ih hu]
      refine forall₂_congr fun resource _ => attempted_congr ?_
      rw [List.append_assoc, closings_append, htrace, List.nil_append]
  | @closed first rest hrun hrest =>
    rcases cons_eq_split hsteps with ⟨rfl, hstep, -⟩ | ⟨earlier, rfl, rfl⟩
    · -- a first close that returns did not hang anywhere
      cases hstep
      have hclose := hrun.attempted_iff hfresh
      rw [hreturns] at hrun
      exact iff_of_true (hclose.2 hrun.uninterrupted) ⟨List.not_mem_nil, List.not_mem_nil⟩
    · -- all steps since the first close are without calls and leave the client as it is
      obtain ⟨hshut, hclient⟩ := hrest ⟨d, .close, run⟩ (by simp)
      have hnext : (Step.mk d .close run).next = (Step.mk c .close first).next := hshut.next.trans hclient
      have htrace : run.trace = [] := hshut.trace
      have hearlier : traceOf earlier = [] := traceOf_shut fun step hstep => (hrest step (by simp [hstep])).1
      rw [traceOf_cons, hearlier, htrace, List.append_nil, List.append_nil, hnext]
      exact hrun.attempted_iff hfresh

end Lifecycle

/-- Whenever a close returns, the close of all that the client owns was attempted, unless an earlier close was abandoned
while the command marker or the internal client hung. -/
theorem close_attempts_all_iff (world : World σ) (patience fuel : Nat) (hfresh : c.Fresh) (scene : Scene σ)
    (ops : List Operation) {before after : List (Step σ)} {run : Run σ ClientError Unit}
    {result : Except ClientError Unit}
    (hsteps : session world patience fuel c scene ops = before ++ ⟨d, .close, run⟩ :: after)
    (hreturns : run.ending = .ofExcept result) :
    (∀ resource ∈ c.owned, Attempted (traceOf before ++ run.trace) (Step.mk d .close run).next resource) ↔
      Uninterrupted (traceOf before) :=
  (session_lifecycle world patience fuel c scene ops).attempted_iff hfresh hsteps hreturns

/-- A close that is abandoned while the command marker hangs. -/
def abandonedClose : Run Script ClientError Unit :=
  (owningClient.step (failingWorld none) 10 3 ⟨0, ⟨[], [], 0⟩⟩ .close).run

def abandonedClient : Client :=
  (Step.mk owningClient .close abandonedClose).next

def secondClose : Run Script ClientError Unit :=
  (abandonedClient.step (failingWorld none) 10 3 abandonedClose.scene .close).run

/-- The second close reports success, and the close of the internal client and of the key service was never
attempted. -/
theorem second_close_leaves_resources :
    session (failingWorld none) 10 3 owningClient ⟨0, ⟨[], [], 0⟩⟩ [.close, .close] =
      [⟨owningClient, .close, abandonedClose⟩, ⟨abandonedClient, .close, secondClose⟩] ∧
    abandonedClose.ending = .expired ∧ secondClose.ending = .done () ∧
    owningClient.owned = [.engine, .marker, .internalClient, .keyService] ∧
    ∀ resource, Attempted (abandonedClose.trace ++ secondClose.trace)
      (Step.mk abandonedClient .close secondClose).next resource → resource = .engine ∨ resource = .marker := by
  refine ⟨rfl, rfl, rfl, rfl, ?_⟩
  rintro resource (hcalled | ⟨-, service, hstream, -⟩)
  · have hclosings : closings (abandonedClose.trace ++ secondClose.trace) = [.engine, .marker] := rfl
    simpa [hclosings] using hcalled
  · cases hstream

theorem close_attempts_all_iff_abandoned :
    ¬ ∀ resource ∈ owningClient.owned,
      Attempted (traceOf [⟨owningClient, .close, abandonedClose⟩] ++ secondClose.trace)
        (Step.mk abandonedClient .close secondClose).next resource := by
  have hfresh : owningClient.Fresh := ⟨rfl, nofun⟩
  have hsteps : session (failingWorld none) 10 3 owningClient ⟨0, ⟨[], [], 0⟩⟩ [.close, .close] =
      [⟨owningClient, .close, abandonedClose⟩] ++ ⟨abandonedClient, .close, secondClose⟩ :: [] := rfl
  have hreturns : secondClose.ending = .ofExcept (.ok ()) := rfl
  have htrace : traceOf [⟨owningClient, .close, abandonedClose⟩] =
      [.engine .close (.error (.status 2 "engine busy")), .service .closeMarker none] := rfl
  intro hall
  have huninterrupted := (close_attempts_all_iff _ _ _ hfresh _ _ hsteps hreturns).1 hall
  rw [htrace] at huninterrupted
  exact huninterrupted.1 (List.mem_cons_of_mem _ List.mem_cons_self)

end Client

end FieldSeal
