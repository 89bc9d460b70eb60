import FieldSeal.Proofs.Kms.ReceiveSafety
import FieldSeal.Proofs.Kms.Sending

/-!
Round trips over streams. A round trip connects, sends the message, receives, and shuts the connection down;
`RoundTrip` describes its traces with their endings.
-/

namespace FieldSeal

namespace Event

/-- Calls on an open connection and on the decryptor that it serves. -/
def onConnection : Event → Bool
  | .engine .bytesNeeded _ | .engine (.feed _) _ => true
  | .service (.write _) _ | .service .flush _ | .service (.read _) _ => true
  | _ => false

/-- Calls of a round trip, by a stream service or by a custom one. -/
def ofRoundTrip : Event → Bool
  | .service (.decryptKey _) _ | .service (.connect _ _) _ | .service .shutdown _ => true
  | e => e.onConnection

/-- A decryptor is handed out. -/
def isHandout : Event → Bool
  | .engine .nextDecryptor (.ok (some _)) => true
  | _ => false

/-- Events that neither hand out a decryptor nor serve one. -/
def isAside (e : Event) : Bool :=
  !e.isHandout && !e.ofRoundTrip

theorem onConnection_of_isSending {e : Event} (h : e.isSending = true) : e.onConnection = true := by
  unfold isSending at h
  split at h
  · rfl
  · rfl
  · cases h

theorem ofRoundTrip_of_onConnection {e : Event} (h : e.onConnection = true) : e.ofRoundTrip = true := by
  unfold ofRoundTrip
  split
  · rfl
  · rfl
  · rfl
  · exact h

end Event

namespace StreamService

open FieldSeal.Action FieldSeal.Trace

variable {σ : Type} {setting : Setting σ}

/-- What happens on an open connection before it is shut down. -/
inductive Exchange (s : StreamService) (request : KeyRequest) : List Event → Ending KmsError Unit → Prop where
  | unsent {t : List Event} {ending : Ending KmsError Unit} (h : Sending request t ending)
      (hending : ending ≠ .done ()) : Exchange s request t ending
  | received {t u : List Event} {ending : Ending KmsError Unit} (hsent : Sending request t (.done ()))
      (h : Receipt s request.host s.responseLimit u ending) : Exchange s request (t ++ u) ending

theorem yields_exchange (s : StreamService) (request : KeyRequest) :
    Yields setting (s.exchange request) (Exchange s request) := by
  unfold exchange
  rw [← bind_assoc]
  refine (yields_sending request s.ioLimit).bind ?_ ?_
  · intro t _ ht
    refine yields_hasRun.mono fun u ending hu => ?_
    exact .received ht (receipt_of_hasRun s request.host s.responseLimit hu)
  · intro t stop ht
    exact .unsent ht (by cases stop <;> exact nofun)

theorem TurnCalls.onConnection {room : Nat} {t : List Event} (h : TurnCalls room t) :
    ∀ e ∈ t, e.onConnection = true := by
  cases h with
  | asked needed => simp [Event.onConnection]
  | read hneeded hroom answer hnone => simp [Event.onConnection]
  | fed hneeded hroom bytes hbytes answer => simp [Event.onConnection]

theorem Receipt.callsOf {s : StreamService} {host : String} {room : Nat} {t : List Event}
    {ending : Ending KmsError Unit} (h : Receipt s host room t ending) :
    CallsOf Event.onConnection t ending where
  only := by
    intro e he
    obtain ⟨before, after, ht⟩ := List.append_of_mem he
    obtain ⟨earlier, front, back, later, -, -, -, hcalls⟩ := h.turn_of_split ht
    exact hcalls.onConnection e (by simp)
  cut := by
    intro hending
    obtain ⟨earlier, final, rfl, -, hlast⟩ := h.exists_last
    subst hending
    cases hlast with
    | @abandoned needed hneeded hroom =>
      exact ((endsCut_singleton _).append [.engine .bytesNeeded needed]).append earlier
  ends := h.ne_unfinished

theorem Exchange.callsOf {s : StreamService} {request : KeyRequest} {t : List Event}
    {ending : Ending KmsError Unit} (h : Exchange s request t ending) :
    CallsOf Event.onConnection t ending := by
  have hmono : ∀ e : Event, e.isSending = true → e.onConnection = true :=
    fun e => Event.onConnection_of_isSending
  cases h with
  | unsent h hending => exact h.callsOf.mono hmono
  | received hsent h => exact (hsent.callsOf.mono hmono).append h.callsOf

/-- The service is open and the request names an address. -/
def Reaches (s : StreamService) (request : KeyRequest) (address : Address) : Prop :=
  s.closed = false ∧ Address.parse request.host = .ok address

inductive Connecting (s : StreamService) (request : KeyRequest) :
    List Event → Ending KmsError Unit → Prop where
  | closed (hclosed : s.closed = true) : Connecting s request [] (.failed .closed)
  | invalid {e : KmsError} (hopen : s.closed = false) (haddress : Address.parse request.host = .error e) :
      Connecting s request [] (.failed e)
  | connected {address : Address} (h : s.Reaches request address) :
      Connecting s request [.service (.connect address.host address.port) (some (.ok ()))] (.done ())
  | failed {address : Address} (h : s.Reaches request address) (cause : Fault) :
      Connecting s request [.service (.connect address.host address.port) (some (.error cause))]
        (.failed (.connect request.host cause))
  | late {address : Address} (h : s.Reaches request address) :
      Connecting s request [.service (.connect address.host address.port) none]
        (.failed (.timeout request.host "connect"))
  | abandoned {address : Address} (h : s.Reaches request address) :
      Connecting s request [.service (.connect address.host address.port) none] .expired

theorem yields_connect (s : StreamService) (request : KeyRequest) :
    Yields setting (s.connect request) (Connecting s request) := by
  unfold connect
  by_cases hclosed : s.closed = true
  · rw [if_pos hclosed]
    exact yields_fail (.closed hclosed)
  have hopen : s.closed = false := Bool.eq_false_iff.2 hclosed
  rw [if_neg hclosed]
  cases haddress : Address.parse request.host with
  | error e => exact yields_fail (.invalid hopen haddress)
  | ok address =>
    have hreaches : s.Reaches request address := ⟨hopen, haddress⟩
    let call : ServiceCall := .connect address.host address.port
    -- the answer of the connector under its limit
    have hcall : Yields setting (inTime request.host "connect" s.connectLimit (await call))
        fun t ending => (∃ answer, t = [.service call (some answer)] ∧ ending = .done answer) ∨
          (t = [.service call none] ∧
            (ending = .expired ∨ ending = .failed (.timeout request.host "connect"))) := by
      refine yields_inTime (P := fun t ending =>
          (∃ answer, t = [.service call (some answer)] ∧ ending = .done answer) ∨
            (t = [.service call none] ∧ ending = .expired)) (fun deadline => ?_) ?_ ?_ ?_
      · rw [← bind_pure (await call)]
        exact yields_await (.inr ⟨rfl, rfl⟩) fun answer => yields_pure (.inl ⟨answer, rfl, rfl⟩)
      · intro t a ht
        rcases ht with h | ⟨-, h⟩
        · exact .inl h
        · exact absurd h nofun
      · intro t ht
        rcases ht with ⟨answer, -, h⟩ | ⟨rfl, -⟩
        · exact absurd h nofun
        · exact .inr ⟨rfl, .inr rfl⟩
      · intro t stop ht
        rcases ht with h | ⟨rfl, h⟩
        · exact .inl h
        · exact .inr ⟨rfl, .inl h⟩
    refine hcall.bind ?_ ?_
    · intro t connected ht
      rcases ht with ⟨answer, rfl, h⟩ | ⟨-, h | h⟩ <;> cases h
      cases connected with
      | error cause => exact yields_fail (.failed hreaches cause)
      | ok _ => exact yields_pure (.connected hreaches)
    · intro t stop ht
      cases stop with
      | failed e =>
        rcases ht with ⟨answer, -, h⟩ | ⟨rfl, h | h⟩ <;> cases h
        exact .late hreaches
      | expired =>
        rcases ht with ⟨answer, -, h⟩ | ⟨rfl, h | h⟩ <;> cases h
        exact .abandoned hreaches
      | unfinished => rcases ht with ⟨answer, -, h⟩ | ⟨rfl, h | h⟩ <;> cases h

/-- A connection that was opened is shut down after the exchange, and the outcome of the exchange is that of
the round trip. Only a caller who no longer waits leaves it open. -/
inductive RoundTrip (s : StreamService) (request : KeyRequest) :
    List Event → Ending KmsError Unit → Prop where
  | unconnected {t : List Event} {stop : Stop KmsError} (h : Connecting s request t stop.ending) :
      RoundTrip s request t stop.ending
  | abandoned {t u : List Event} (hconnect : Connecting s request t (.done ()))
      (h : Exchange s request u .expired) : RoundTrip s request (t ++ u) .expired
  | hung {t u : List Event} {ending : Ending KmsError Unit} (hconnect : Connecting s request t (.done ()))
      (h : Exchange s request u ending) (hends : ending ≠ .expired) :
      RoundTrip s request (t ++ (u ++ [.service .shutdown none])) .expired
  | shut {t u : List Event} {ending : Ending KmsError Unit} (hconnect : Connecting s request t (.done ()))
      (h : Exchange s request u ending) (hends : ending ≠ .expired) (answer : Except Fault Unit) :
      RoundTrip s request (t ++ (u ++ [.service .shutdown (some answer)])) ending

theorem yields_decryptKey (s : StreamService) (request : KeyRequest) :
    Yields setting (s.decryptKey request) (RoundTrip s request) := by
  refine (yields_connect s request).bind ?_ fun t stop ht => .unconnected ht
  intro t _ ht
  -- the outcome of the exchange is passed on as a value, or the caller no longer waits
  have hexchange : Yields setting (attempt (s.exchange request) : Action σ KmsError _) fun u ending =>
      (∃ outcome : Except KmsError Unit, ending = .done outcome ∧
        Exchange s request u (.ofExcept outcome)) ∨
      (ending = .expired ∧ Exchange s request u .expired) := by
    refine yields_attempt ((yields_exchange s request).mono ?_)
    intro u ending hu
    cases ending with
    | done value => exact .inl ⟨.ok value, rfl, hu⟩
    | failed e => exact .inl ⟨.error e, rfl, hu⟩
    | expired => exact .inr ⟨rfl, hu⟩
    | unfinished => exact absurd rfl hu.callsOf.ends
  refine hexchange.bind ?_ ?_
  · intro u outcome hu
    rcases hu with ⟨_, ⟨rfl⟩, hu⟩ | ⟨h, -⟩
    · -- the connection is shut down whatever came of the exchange
      refine yields_await (.hung ht hu ?_) fun answer => ?_
      · cases outcome <;> exact nofun
      · cases outcome with
        | error e => exact yields_fail (.shut ht hu nofun answer)
        | ok value => exact yields_pure (.shut ht hu nofun answer)
    · cases h
  · intro u stop hu
    rcases hu with ⟨_, h, -⟩ | ⟨h, hu⟩ <;> cases stop <;> cases h
    exact .abandoned ht hu

theorem Connecting.callsOf {s : StreamService} {request : KeyRequest} {t : List Event}
    {ending : Ending KmsError Unit} (h : Connecting s request t ending) :
    CallsOf Event.ofRoundTrip t ending := by
  cases h with
  | closed hclosed => exact .nil nofun nofun
  | invalid hopen haddress => exact .nil nofun nofun
  | connected h => exact .singleton rfl nofun nofun
  | failed h cause => exact .singleton rfl nofun nofun
  | late h => exact .singleton rfl nofun nofun
  | abandoned h => exact .singleton rfl (fun _ => endsCut_singleton _) nofun

theorem RoundTrip.callsOf {s : StreamService} {request : KeyRequest} {t : List Event}
    {ending : Ending KmsError Unit} (h : RoundTrip s request t ending) :
    CallsOf Event.ofRoundTrip t ending := by
  have hmono : ∀ e : Event, e.onConnection = true → e.ofRoundTrip = true :=
    fun e => Event.ofRoundTrip_of_onConnection
  cases h with
  | unconnected h => exact h.callsOf
  | abandoned hconnect h => exact hconnect.callsOf.append (h.callsOf.mono hmono)
  | hung hconnect h hends =>
    have hshut : CallsOf Event.ofRoundTrip [.service .shutdown none] (.expired : Ending KmsError Unit) :=
      .singleton rfl (fun _ => endsCut_singleton .shutdown) nofun
    exact hconnect.callsOf.append ((h.callsOf.mono hmono).append hshut)
  | shut hconnect h hends answer =>
    have hshut : CallsOf Event.ofRoundTrip [.service .shutdown (some answer)] ending :=
      .singleton rfl (fun hexpired => absurd hexpired hends) h.callsOf.ends
    exact hconnect.callsOf.append ((h.callsOf.mono hmono).append hshut)

end StreamService

end FieldSeal
