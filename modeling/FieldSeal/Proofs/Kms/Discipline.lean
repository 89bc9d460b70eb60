import FieldSeal.Proofs.Kms.Setback
import FieldSeal.Proofs.Kms.Stages

/-!
The discipline of connections. A round trip opens at most one connection, goes through its stages in their order, and
does nothing after the first setback but shut the connection down; its outcome is that setback, whatever becomes
of the shutdown.
-/

namespace FieldSeal

namespace StreamService

open FieldSeal.Action FieldSeal.Trace

variable {σ : Type} {s : StreamService} {request : KeyRequest} {t u before after : List Event}
  {ending outcome : Ending KmsError Unit}

theorem Setback.stage {e : Event} {error : KmsError} (h : Setback s request before e error) : e.stage ≤ 3 := by
  cases h <;> simp [Event.stage]

/-- What becomes of an open connection after the exchange. -/
inductive Closing : Ending KmsError Unit → List Event → Ending KmsError Unit → Prop where
  | abandoned : Closing .expired [] .expired
  | hung {outcome : Ending KmsError Unit} (houtcome : outcome ≠ .expired) :
      Closing outcome [.service .shutdown none] .expired
  | shut {outcome : Ending KmsError Unit} (houtcome : outcome ≠ .expired) (answer : Except Fault Unit) :
      Closing outcome [.service .shutdown (some answer)] outcome

theorem Closing.eq_shutdown (h : Closing outcome t ending) :
    ∀ e ∈ t, ∃ answer, e = .service .shutdown answer := by
  cases h with
  | abandoned => exact List.forall_mem_nil _
  | hung houtcome => exact List.forall_mem_singleton.2 ⟨_, rfl⟩
  | shut houtcome answer => exact List.forall_mem_singleton.2 ⟨_, rfl⟩

theorem Closing.of_shutdown {answer : Option (Except Fault Unit)} (h : Closing outcome t ending)
    (ht : t = before ++ .service .shutdown answer :: after) : before = [] ∧ after = [] := by
  cases h with
  | abandoned => exact absurd ht (by simp)
  | hung houtcome =>
    obtain ⟨hbefore, -, hafter⟩ := singleton_eq_split ht
    exact ⟨hbefore, hafter⟩
  | shut houtcome answer =>
    obtain ⟨hbefore, -, hafter⟩ := singleton_eq_split ht
    exact ⟨hbefore, hafter⟩

/-- The calls on an open connection up to the end of its round trip. -/
structure Conversation (s : StreamService) (request : KeyRequest) (t : List Event) (ending : Ending KmsError Unit) :
    Prop where
  stages : ∀ e ∈ t, 1 ≤ e.stage ∧ e.stage ≤ 4
  inOrder : InOrder t
  writes : ∀ before bytes answer after, t = before ++ .service (.write bytes) answer :: after →
    bytes ≠ [] ∧ accepted before ++ bytes = request.message
  accepted_prefix : ∀ before after, t = before ++ after → accepted before <+: request.message
  flushes : ∀ before answer after, t = before ++ .service .flush answer :: after →
    accepted before = request.message ∧ ∀ e ∈ before ++ after, e.isFlush = false
  flush_next : ∀ before after, t = before ++ after → accepted before = request.message →
    (∀ e ∈ before, e.isFlush = false) → ∃ answer rest, after = .service .flush answer :: rest
  reads : ∀ before e after, t = before ++ e :: after → e.stage = 3 →
    .service .flush (some (.ok ())) ∈ before
  setback : ∀ before e after error, t = before ++ e :: after → Setback s request before e error →
    (ending = .failed error ∧ ∃ answer, after = [.service .shutdown (some answer)]) ∨
      (ending = .expired ∧ (after = [] ∨ after = [.service .shutdown none]))
  shutdown_last : ∀ before answer after, t = before ++ .service .shutdown answer :: after →
    after = [] ∧ ∀ e ∈ before, e.stage ≤ 3
  shut : ending ≠ .expired ↔ ∃ before answer, t = before ++ [.service .shutdown (some answer)]
  failed : ∀ error, ending = .failed error → ∃ before e answer,
    t = before ++ [e, .service .shutdown (some answer)] ∧ Setback s request before e error
  done : ending = .done () → ∃ before answer,
    t = before ++ [.engine .bytesNeeded 0, .service .shutdown (some answer)]
  ends : ending ≠ .unfinished

theorem accepted_of_shutdowns (hu : ∀ e ∈ u, ∃ answer, e = .service .shutdown answer) : accepted u = [] := by
  induction u with
  | nil => rfl
  | cons e u ih =>
    obtain ⟨⟨answer, rfl⟩, hrest⟩ := List.forall_mem_cons.1 hu
    exact ih hrest

/-- An event before the last stage belongs to the exchange. -/
theorem Closing.split {e : Event} (h : Closing outcome u ending) (hsplit : t ++ u = before ++ e :: after)
    (he : e.stage ≤ 3) : ∃ rest, t = before ++ e :: rest ∧ after = rest ++ u := by
  rcases append_eq_split hsplit with hfound | ⟨rest, hu, -⟩
  · exact hfound
  · obtain ⟨answer, rfl⟩ := h.eq_shutdown e (by simp [hu])
    cases Nat.lt_irrefl 3 he

section Assembly

variable (h : Exchange s request t outcome) (hclosing : Closing outcome u ending)
include h hclosing

theorem conversation_setback {e : Event} {error : KmsError} (hsplit : t ++ u = before ++ e :: after)
    (hsetback : Setback s request before e error) :
    (ending = .failed error ∧ ∃ answer, after = [.service .shutdown (some answer)]) ∨
      (ending = .expired ∧ (after = [] ∨ after = [.service .shutdown none])) := by
  obtain ⟨rest, ht, rfl⟩ := hclosing.split hsplit hsetback.stage
  obtain ⟨rfl, houtcome⟩ := h.halts.setback before e rest error ht hsetback
  rw [List.nil_append]
  cases hclosing with
  | abandoned => exact .inr ⟨rfl, .inl rfl⟩
  | hung hexpired => exact .inr ⟨rfl, .inr rfl⟩
  | shut hexpired answer => exact .inl ⟨houtcome.resolve_right hexpired, answer, rfl⟩

theorem conversation_flush_next (hsplit : t ++ u = before ++ after) (haccepted : accepted before = request.message)
    (hflush : ∀ e ∈ before, e.isFlush = false) : ∃ answer rest, after = .service .flush answer :: rest := by
  rcases List.append_eq_append_iff.1 hsplit with ⟨rest, rfl, hu⟩ | ⟨rest, ht, rfl⟩
  · -- before the shutdown there was a flush, or there would have been one
    have hrest : accepted rest = [] := by
      refine accepted_of_shutdowns fun e he => hclosing.eq_shutdown e ?_
      rw [hu]
      exact List.mem_append_left _ he
    rw [accepted_append, hrest, List.append_nil] at haccepted
    have htflush : ∀ e ∈ t, e.isFlush = false := fun e he => hflush e (List.mem_append_left _ he)
    obtain ⟨answer, later, hnil⟩ := h.flush_next (List.append_nil t).symm haccepted htflush
    cases hnil
  · obtain ⟨answer, later, rfl⟩ := h.flush_next ht haccepted hflush
    exact ⟨answer, later ++ u, rfl⟩

theorem conversation_accepted (hsplit : t ++ u = before ++ after) : accepted before <+: request.message := by
  have hall : accepted (t ++ u) = accepted t := by
    rw [accepted_append, accepted_of_shutdowns hclosing.eq_shutdown, List.append_nil]
  have hbefore : accepted before <+: accepted t := by
    rw [← hall, hsplit, accepted_append]
    exact List.prefix_append _ _
  exact hbefore.trans h.accepted_prefix

theorem conversation_shut :
    ending ≠ .expired ↔ ∃ before answer, t ++ u = before ++ [.service .shutdown (some answer)] := by
  constructor
  · intro hending
    cases hclosing with
    | abandoned => exact absurd rfl hending
    | hung houtcome => exact absurd rfl hending
    | shut houtcome answer => exact ⟨t, answer, rfl⟩
  · rintro ⟨before, answer, hlast⟩
    cases hclosing with
    | abandoned =>
      rw [List.append_nil] at hlast
      have hstage := (h.stage (.service .shutdown (some answer)) (by simp [hlast])).2
      cases Nat.lt_irrefl 3 hstage
    | hung houtcome => simp at hlast
    | shut houtcome answer => exact houtcome

theorem conversation_failed {error : KmsError} (hending : ending = .failed error) :
    ∃ before e answer, t ++ u = before ++ [e, .service .shutdown (some answer)] ∧
      Setback s request before e error := by
  cases hclosing with
  | abandoned => cases hending
  | hung houtcome => cases hending
  | shut houtcome answer =>
    obtain ⟨before, e, rfl, hsetback⟩ := h.halts.failed error hending
    exact ⟨before, e, answer, List.append_assoc _ _ _, hsetback⟩

theorem conversation_done (hending : ending = .done ()) : ∃ before answer,
    t ++ u = before ++ [.engine .bytesNeeded 0, .service .shutdown (some answer)] := by
  cases hclosing with
  | abandoned => cases hending
  | hung houtcome => cases hending
  | shut houtcome answer =>
    obtain ⟨before, rfl⟩ := h.of_done hending
    exact ⟨before, answer, List.append_assoc _ _ _⟩

theorem conversation_of_exchange : Conversation s request (t ++ u) ending where
  stages := by
    refine List.forall_mem_append.2 ⟨fun e he => ?_, fun e he => ?_⟩
    · have hstage := h.stage e he
      omega
    · obtain ⟨answer, rfl⟩ := hclosing.eq_shutdown e he
      exact ⟨Nat.le_of_ble_eq_true rfl, Nat.le_refl 4⟩
  inOrder := by
    have hstage : ∀ e ∈ u, e.stage = 4 := by
      intro e he
      obtain ⟨answer, rfl⟩ := hclosing.eq_shutdown e he
      rfl
    refine h.inOrder.append (inOrder_of_stage hstage) (fun e he => (h.stage e he).2) fun e he => ?_
    rw [hstage e he]
    decide
  writes before bytes answer after hsplit := by
    obtain ⟨rest, ht, -⟩ := hclosing.split hsplit (Nat.le_of_ble_eq_true rfl)
    exact h.of_write ht
  accepted_prefix before after hsplit := conversation_accepted h hclosing hsplit
  flushes before answer after hsplit := by
    obtain ⟨rest, ht, rfl⟩ := hclosing.split hsplit (Nat.le_of_ble_eq_true rfl)
    obtain ⟨haccepted, honce⟩ := h.of_flush ht
    refine ⟨haccepted, ?_⟩
    rw [← List.append_assoc]
    refine List.forall_mem_append.2 ⟨honce, fun e he => ?_⟩
    obtain ⟨reply, rfl⟩ := hclosing.eq_shutdown e he
    rfl
  flush_next before after hsplit := conversation_flush_next h hclosing hsplit
  reads before e after hsplit he := by
    obtain ⟨rest, ht, -⟩ := hclosing.split hsplit (Nat.le_of_eq he)
    exact h.of_stage_three ht he
  setback before e after error hsplit := conversation_setback h hclosing hsplit
  shutdown_last before answer after hsplit := by
    rcases append_eq_split hsplit with ⟨rest, ht, -⟩ | ⟨rest, hu, rfl⟩
    · have hstage := (h.stage (.service .shutdown answer) (by simp [ht])).2
      cases Nat.lt_irrefl 3 hstage
    · obtain ⟨rfl, rfl⟩ := hclosing.of_shutdown hu
      rw [List.append_nil]
      exact ⟨rfl, fun e he => (h.stage e he).2⟩
  shut := conversation_shut h hclosing
  failed error := conversation_failed h hclosing
  done := conversation_done h hclosing
  ends := by
    cases hclosing with
    | abandoned => exact nofun
    | hung houtcome => exact nofun
    | shut houtcome answer => exact h.callsOf.ends

end Assembly

/-- What a round trip promises. A service that is closed and a host that is no address are refused without a call;
otherwise one connection is opened, and all other calls depend on its being open. -/
structure Disciplined (s : StreamService) (request : KeyRequest) (t : List Event) (ending : Ending KmsError Unit) :
    Prop where
  closed : s.closed = true → t = [] ∧ ending = .failed .closed
  invalidHost : s.closed = false → Address.parse? request.host = none →
    t = [] ∧ ending = .failed (.invalidHost request.host)
  connects : ∀ address, s.closed = false → Address.parse? request.host = some address →
    (∃ calls, t = .service (.connect address.host address.port) (some (.ok ())) :: calls ∧
        Conversation s request calls ending) ∨
      (∃ cause, t = [.service (.connect address.host address.port) (some (.error cause))] ∧
        ending = .failed (.connect request.host cause)) ∨
      (t = [.service (.connect address.host address.port) none] ∧
        (ending = .failed (.timeout request.host "connect") ∨ ending = .expired))

theorem Reaches.unique {address other : Address} (h : s.Reaches request address)
    (hother : Address.parse? request.host = some other) : other = address := by
  have haddress := h.2
  rw [Address.parse, hother] at haddress
  exact Except.ok.inj haddress

theorem disciplined_of_reaches {address : Address} (hreaches : s.Reaches request address)
    (h : (∃ calls, t = .service (.connect address.host address.port) (some (.ok ())) :: calls ∧
        Conversation s request calls ending) ∨
      (∃ cause, t = [.service (.connect address.host address.port) (some (.error cause))] ∧
        ending = .failed (.connect request.host cause)) ∨
      (t = [.service (.connect address.host address.port) none] ∧
        (ending = .failed (.timeout request.host "connect") ∨ ending = .expired))) :
    Disciplined s request t ending where
  closed hclosed := by
    rw [hreaches.1] at hclosed
    cases hclosed
  invalidHost _ hinvalid := by
    have haddress := hreaches.2
    rw [Address.parse, hinvalid] at haddress
    cases haddress
  connects other _ hother := by
    rw [hreaches.unique hother]
    exact h

theorem disciplined_of_closed (hclosed : s.closed = true) : Disciplined s request [] (.failed .closed) where
  closed _ := ⟨rfl, rfl⟩
  invalidHost hopen _ := by
    rw [hclosed] at hopen
    cases hopen
  connects _ hopen _ := by
    rw [hclosed] at hopen
    cases hopen

theorem disciplined_of_refused {e : KmsError} (hopen : s.closed = false)
    (haddress : Address.parse request.host = .error e) : Disciplined s request [] (.failed e) where
  closed hclosed := by
    rw [hopen] at hclosed
    cases hclosed
  invalidHost _ hinvalid := by
    rw [Address.parse, hinvalid] at haddress
    cases haddress
    exact ⟨rfl, rfl⟩
  connects address _ hparsed := by
    rw [Address.parse, hparsed] at haddress
    cases haddress

theorem disciplined_of_open (hconnect : Connecting s request t (.done ())) (h : Exchange s request u outcome)
    {closing : List Event} (hclosing : Closing outcome closing ending) :
    Disciplined s request (t ++ (u ++ closing)) ending := by
  cases hconnect with
  | connected hreaches =>
    exact disciplined_of_reaches hreaches (.inl ⟨u ++ closing, rfl, conversation_of_exchange h hclosing⟩)

theorem RoundTrip.disciplined (h : RoundTrip s request t ending) : Disciplined s request t ending := by
  cases h with
  | unconnected h =>
    generalize hstop : Stop.ending _ = stopped at h ⊢
    cases h with
    | closed hclosed => exact disciplined_of_closed hclosed
    | invalid hopen haddress => exact disciplined_of_refused hopen haddress
    | connected hreaches =>
      -- a connection that is opened is no way to stop
      rename_i stop _
      cases stop <;> cases hstop
    | failed hreaches cause => exact disciplined_of_reaches hreaches (.inr (.inl ⟨cause, rfl, rfl⟩))
    | late hreaches => exact disciplined_of_reaches hreaches (.inr (.inr ⟨rfl, .inl rfl⟩))
    | abandoned hreaches => exact disciplined_of_reaches hreaches (.inr (.inr ⟨rfl, .inr rfl⟩))
  | @abandoned t u hconnect h =>
    rw [← List.append_nil u]
    exact disciplined_of_open hconnect h .abandoned
  | hung hconnect h houtcome => exact disciplined_of_open hconnect h (.hung houtcome)
  | shut hconnect h houtcome answer => exact disciplined_of_open hconnect h (.shut houtcome answer)

/-- Where an engine rejects what it is fed, that is the failure of the round trip, unless the caller gave up. -/
theorem Disciplined.of_feed_error {bytes : Bytes} {e : EngineError} (h : Disciplined s request t ending)
    (hmem : .engine (.feed bytes) (.error e) ∈ t) : ending = .failed (.engine e) ∨ ending = .expired := by
  cases hclosed : s.closed with
  | true => simp [(h.closed hclosed).1] at hmem
  | false =>
    cases haddress : Address.parse? request.host with
    | none => simp [(h.invalidHost hclosed haddress).1] at hmem
    | some address =>
      rcases h.connects address hclosed haddress with ⟨calls, rfl, hcalls⟩ | ⟨cause, rfl, -⟩ | ⟨rfl, -⟩
      · have hfeed : .engine (.feed bytes) (.error e) ∈ calls := by simpa using hmem
        obtain ⟨before, after, rfl⟩ := List.append_of_mem hfeed
        rcases hcalls.setback before _ after _ rfl (.rejected bytes e) with ⟨hfailed, -⟩ | ⟨hexpired, -⟩
        · exact .inl hfailed
        · exact .inr hexpired
      · simp at hmem
      · simp at hmem

/-- Whatever the connector and the stream do, a round trip keeps to the discipline of connections. -/
theorem decryptKey_disciplined (s : StreamService) (request : KeyRequest) (setting : Setting σ) (scene : Scene σ) :
    Disciplined s request (s.decryptKey request setting scene).trace
      (s.decryptKey request setting scene).ending :=
  (yields_decryptKey s request scene).disciplined

end StreamService

end FieldSeal
