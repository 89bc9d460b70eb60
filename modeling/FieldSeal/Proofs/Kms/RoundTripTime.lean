import FieldSeal.Proofs.Client.Scripted
import FieldSeal.Proofs.Kms.ExchangeTime

/-!
The time that a round trip takes, and the timeouts that it reports. Whatever the connector and the stream do, the
limits on the connect and on the exchange bound the time until the outcome is decided; only the shutdown after it has
no limit.
-/

namespace FieldSeal

/-- What a call that is cut off is reported as. -/
def Event.operation? : Event → Option String
  | .service (.connect _ _) _ => some "connect"
  | .service (.write _) _ | .service .flush _ => some "write"
  | .service (.read _) _ => some "read"
  | _ => none

namespace StreamService

open FieldSeal.Action FieldSeal.Trace

variable {σ : Type} {setting : Setting σ} {scene opened mid last : Scene σ} {s : StreamService}
  {request : KeyRequest} {t : List Event} {moments calls closing : List (Moment σ)}
  {ending outcome : Ending KmsError Unit} {name operation : String}

section Timeouts

/-- A timeout is a setback to a call that is cut off. -/
theorem Setback.of_timeout {before : List Event} {e : Event}
    (h : Setback s request before e (.timeout name operation)) :
    name = request.host ∧ e.isCut = true ∧ e.operation? = some operation := by
  cases h <;> exact ⟨rfl, rfl, rfl⟩

theorem setback_of_cut {before : List Event} {e : Event} (hcut : e.isCut = true)
    (hoperation : e.operation? = some operation) (hstage : 1 ≤ e.stage) :
    Setback s request before e (.timeout request.host operation) := by
  unfold Event.isCut at hcut
  split at hcut
  · next call =>
    cases call <;> cases hoperation
    case connect => cases hstage
    case write bytes => exact .writeLate bytes
    case flush => exact .flushLate
    case read want => exact .readLate want
  · cases hcut

/-- Where the caller waits, a timeout is reported if and only if a call other than the shutdown is cut off. -/
theorem Disciplined.timeout_iff (h : Disciplined s request t ending) (hwaits : ending ≠ .expired) :
    ending = .failed (.timeout name operation) ↔
      name = request.host ∧ ∃ e ∈ t, e.isCut = true ∧ e.operation? = some operation := by
  cases hclosed : s.closed with
  | true =>
    obtain ⟨rfl, rfl⟩ := h.closed hclosed
    simp
  | false =>
    cases haddress : Address.parse? request.host with
    | none =>
      obtain ⟨rfl, rfl⟩ := h.invalidHost hclosed haddress
      simp
    | some address =>
      rcases h.connects address hclosed haddress with ⟨calls, rfl, hcalls⟩ | ⟨cause, rfl, rfl⟩ | ⟨rfl, hending⟩
      · constructor
        · intro hfailed
          obtain ⟨before, e, answer, rfl, hsetback⟩ := hcalls.failed _ hfailed
          obtain ⟨hname, hcut⟩ := hsetback.of_timeout
          exact ⟨hname, e, by simp, hcut⟩
        · rintro ⟨rfl, e, he, hcut, hoperation⟩
          rcases List.mem_cons.1 he with rfl | he
          · cases hcut
          · obtain ⟨before, after, rfl⟩ := List.append_of_mem he
            have hsetback : Setback s request before e (.timeout request.host operation) :=
              setback_of_cut hcut hoperation (hcalls.stages e he).1
            rcases hcalls.setback before e after _ rfl hsetback with ⟨hfailed, -⟩ | ⟨hexpired, -⟩
            · exact hfailed
            · exact absurd hexpired hwaits
      · simp [Event.isCut]
      · rw [hending.resolve_right hwaits]
        constructor
        · rintro ⟨⟩
          exact ⟨rfl, _, List.mem_singleton_self _, rfl, rfl⟩
        · rintro ⟨rfl, e, he, -, hoperation⟩
          rw [List.mem_singleton.1 he] at hoperation
          cases hoperation
          rfl

end Timeouts

/-- How long it takes at most until the outcome of a round trip is decided. -/
def timeBound (s : StreamService) : Nat :=
  s.connectLimit + (2 * s.ioLimit + s.responseLimit * s.ioLimit)

/-- The caller waits for the outcome, if not for the shutdown. -/
def Waited (moments : List (Moment σ)) (ending : Ending KmsError Unit) : Prop :=
  ending = .expired → ∃ m ∈ moments, m.event.isShutdown = true

/-- How long a connect takes if it is left alone; `none` for one that never ends. -/
def connectTime (world : World σ) (address : Address) (scene : Scene σ) : Option Nat :=
  (world.service (.connect address.host address.port) scene.now scene.state).outcome.map Prod.fst

/-- What the limits of a round trip promise, whatever becomes of its calls. -/
structure Timely (setting : Setting σ) (s : StreamService) (request : KeyRequest) (scene : Scene σ)
    (moments : List (Moment σ)) (last : Scene σ) (ending : Ending KmsError Unit) : Prop where
  /-- Which calls are made, in which order and with which data, and how they decide the outcome. -/
  disciplined : Disciplined s request (moments.map Moment.event) ending
  /-- A service that is open connects at once to the address that the host stands for. -/
  opens : ∀ address, s.closed = false → Address.parse? request.host = some address → ∃ answer opened later,
    moments = ⟨scene, .service (.connect address.host address.port) answer, opened⟩ :: later
  /-- A connect is reported late exactly when it takes longer than its limit, and then at the limit. -/
  connectLate : ∀ address, s.closed = false → Address.parse? request.host = some address → Waited moments ending →
    (ending = .failed (.timeout request.host "connect") ↔
      Exceeds s.connectLimit (connectTime setting.world address scene)) ∧
    (ending = .failed (.timeout request.host "connect") → last.now = scene.now + s.connectLimit)
  decided : (last.now ≤ scene.now + s.timeBound ∧ ∀ m ∈ moments, m.event.isShutdown = false) ∨
    ∃ before m, moments = before ++ [m] ∧ m.event.isShutdown = true ∧ m.began.now ≤ scene.now + s.timeBound ∧
      ∀ m ∈ before, m.event.isShutdown = false
  connect : Waited moments ending → ∀ m ∈ moments, m.event.isConnect = true →
    m.began = scene ∧ m.Limited setting.world s.connectLimit
  writes : Waited moments ending → ∀ host port opened calls,
    moments = ⟨scene, .service (.connect host port) (some (.ok ())), opened⟩ :: calls →
      ((∃ m ∈ calls, m.event.isWrite = true ∧ m.event.isCut = true) ↔
        Exceeds s.ioLimit (writingTime setting.world request.message opened)) ∧
      ∀ m ∈ calls, m.event.isWrite = true → m.event.isCut = true → m.ended.now = opened.now + s.ioLimit
  each : Waited moments ending → ∀ m ∈ moments, m.event.isFlush = true ∨ m.event.isRead = true →
    m.Limited setting.world s.ioLimit
  shutdown : ∀ m ∈ moments, m.event.isShutdown = true → m.event.isCut = true → m.ended.now = setting.deadline
  abandoned : scene.now + s.timeBound ≤ setting.deadline → ending = .expired →
    ∃ before m, moments = before ++ [m] ∧ m.event = .service .shutdown none
  ends : ending ≠ .unfinished
  timeouts : ending ≠ .expired → ∀ name operation, ending = .failed (.timeout name operation) ↔
    name = request.host ∧ ∃ m ∈ moments, m.event.isCut = true ∧ m.event.operation? = some operation

theorem Disciplined.timeouts (moments : List (Moment σ))
    (h : Disciplined s request (moments.map Moment.event) ending) (hwaits : ending ≠ .expired) :
    ending = .failed (.timeout name operation) ↔
      name = request.host ∧ ∃ m ∈ moments, m.event.isCut = true ∧ m.event.operation? = some operation := by
  rw [h.timeout_iff hwaits]
  refine and_congr_right fun _ => ⟨?_, ?_⟩
  · rintro ⟨e, he, hcut⟩
    obtain ⟨m, hm, rfl⟩ := List.mem_map.1 he
    exact ⟨m, hm, hcut⟩
  · rintro ⟨m, hm, hcut⟩
    exact ⟨_, List.mem_map_of_mem hm, hcut⟩

/-- A connect is to the address that the host stands for. -/
theorem Disciplined.connects_to {host : String} {port : Nat} {answer : Option (Except Fault Unit)} {address : Address}
    (h : Disciplined s request (.service (.connect host port) answer :: t) ending) (hopen : s.closed = false)
    (haddress : Address.parse? request.host = some address) : host = address.host ∧ port = address.port := by
  rcases h.connects address hopen haddress with ⟨calls, ht, -⟩ | ⟨cause, ht, -⟩ | ⟨ht, -⟩
  all_goals
    obtain ⟨hfirst, -⟩ := List.cons.inj ht
    cases hfirst
    exact ⟨rfl, rfl⟩

theorem operation_ne_connect {e : Event} (h : 1 ≤ e.stage) : e.operation? ≠ some "connect" := by
  intro hconnect
  unfold Event.operation? at hconnect
  split at hconnect
  · cases h
  · exact absurd hconnect (by decide)
  · exact absurd hconnect (by decide)
  · exact absurd hconnect (by decide)
  · cases hconnect

/-- Where the caller waits, a connect is reported late if and only if it is cut off. -/
theorem Disciplined.connect_late_iff {address : Address} {answer : Option (Except Fault Unit)}
    (h : Disciplined s request (.service (.connect address.host address.port) answer :: t) ending)
    (hopen : s.closed = false) (haddress : Address.parse? request.host = some address)
    (hwaited : ending = .expired → ∃ e ∈ t, e.isShutdown = true) :
    ending = .failed (.timeout request.host "connect") ↔ answer = none := by
  rcases h.connects address hopen haddress with ⟨calls, ht, hcalls⟩ | ⟨cause, ht, hending⟩ | ⟨ht, hending⟩
  · obtain ⟨hanswer, rfl⟩ := List.cons.inj ht
    cases hanswer
    refine iff_of_false (fun hfailed => ?_) nofun
    obtain ⟨before, e, answer, rfl, hsetback⟩ := hcalls.failed _ hfailed
    exact operation_ne_connect (hcalls.stages e (by simp)).1 hsetback.of_timeout.2.2
  · obtain ⟨hanswer, -⟩ := List.cons.inj ht
    cases hanswer
    rw [hending]
    exact iff_of_false nofun nofun
  · obtain ⟨hanswer, rfl⟩ := List.cons.inj ht
    cases hanswer
    refine iff_of_true (hending.resolve_right fun hexpired => ?_) rfl
    obtain ⟨e, he, -⟩ := hwaited hexpired
    cases he

/-- A connect that keeps to its limit is cut off when it exceeds the limit, and only that is reported as late. -/
theorem late_iff_exceeds {address : Address} {answer : Option (Except Fault Unit)} (later : List (Moment σ))
    (hlimited : Moment.Limited setting.world s.connectLimit
      ⟨scene, .service (.connect address.host address.port) answer, opened⟩)
    (h : Disciplined s request (.service (.connect address.host address.port) answer :: later.map Moment.event) ending)
    (hopen : s.closed = false) (haddress : Address.parse? request.host = some address)
    (hwaited : ending = .expired → ∃ m ∈ later, m.event.isShutdown = true) :
    ending = .failed (.timeout request.host "connect") ↔
      Exceeds s.connectLimit (connectTime setting.world address scene) := by
  have hcut : answer = none ↔ (Event.service (.connect address.host address.port) answer).isCut = true := by
    cases answer <;> simp [Event.isCut]
  refine (h.connect_late_iff hopen haddress fun hexpired => ?_).trans (hcut.trans hlimited.cut_iff)
  obtain ⟨m, hm, hshutdown⟩ := hwaited hexpired
  exact ⟨_, List.mem_map_of_mem hm, hshutdown⟩

theorem timely_of_refused {e : KmsError} (h : RoundTrip s request [] (.failed e)) :
    Timely setting s request scene [] scene (.failed e) where
  disciplined := h.disciplined
  opens address hopen haddress := by
    rcases h.disciplined.connects address hopen haddress with ⟨calls, ht, -⟩ | ⟨cause, ht, -⟩ | ⟨ht, -⟩ <;> cases ht
  connectLate address hopen haddress := by
    rcases h.disciplined.connects address hopen haddress with ⟨calls, ht, -⟩ | ⟨cause, ht, -⟩ | ⟨ht, -⟩ <;> cases ht
  decided := .inl ⟨Nat.le_add_right _ _, List.forall_mem_nil _⟩
  connect _ := List.forall_mem_nil _
  writes _ _ _ _ _ hmoments := nomatch hmoments
  each _ := List.forall_mem_nil _
  shutdown := List.forall_mem_nil _
  abandoned _ := nofun
  ends := nofun
  timeouts hwaits _ _ := h.disciplined.timeouts ([] : List (Moment σ)) hwaits

/-- Where no connection was opened. -/
theorem timely_of_unopened {host : String} {port : Nat}
    (h : OneCall setting.world (.connect host port) s.connectLimit setting.deadline scene moments last ending)
    (hroundTrip : RoundTrip s request (moments.map Moment.event) ending)
    (hunopened : .service (.connect host port) (some (.ok ())) ∉ moments.map Moment.event) :
    Timely setting s request scene moments last ending := by
  have hby : By (scene.now + s.timeBound) setting.deadline last ending := by
    refine h.by_then.mono ?_
    unfold timeBound
    omega
  obtain ⟨answer, rfl⟩ := h.single
  have hwaits : Waited [⟨scene, .service (.connect host port) answer, last⟩] ending → ending ≠ .expired := by
    intro hwaited hexpired
    obtain ⟨m, hm, hshutdown⟩ := hwaited hexpired
    rw [List.mem_singleton.1 hm] at hshutdown
    cases hshutdown
  constructor
  case disciplined => exact hroundTrip.disciplined
  case opens =>
    intro address hopen haddress
    obtain ⟨rfl, rfl⟩ := hroundTrip.disciplined.connects_to hopen haddress
    exact ⟨answer, last, [], rfl⟩
  case connectLate =>
    intro address hopen haddress hwaited
    obtain ⟨rfl, rfl⟩ := hroundTrip.disciplined.connects_to hopen haddress
    have hlimited := List.forall_mem_singleton.1 (h.limited (hwaits hwaited))
    have hlate := late_iff_exceeds [] hlimited hroundTrip.disciplined hopen haddress
      fun hexpired => absurd hexpired (hwaits hwaited)
    exact ⟨hlate, fun hfailed => hlimited.cut_at (hlimited.cut_iff.2 (hlate.1 hfailed))⟩
  case decided => exact .inl ⟨hby.ended, List.forall_mem_singleton.2 rfl⟩
  case connect =>
    intro hwaited
    have hlimited := List.forall_mem_singleton.1 (h.limited (hwaits hwaited))
    exact List.forall_mem_singleton.2 fun _ => ⟨rfl, hlimited⟩
  case writes =>
    rintro - host' port' opened calls hmoments
    obtain ⟨hfirst, -⟩ := List.cons.inj hmoments
    cases hfirst
    exact absurd (List.mem_singleton_self _) hunopened
  case each =>
    refine fun _ => List.forall_mem_singleton.2 fun hcall => ?_
    rcases hcall with hcall | hcall <;> cases hcall
  case shutdown => exact List.forall_mem_singleton.2 nofun
  case abandoned =>
    intro hle hexpired
    have hlt := hby.abandoned hexpired
    omega
  case ends => exact hroundTrip.callsOf.ends
  case timeouts => exact fun hending name operation => hroundTrip.disciplined.timeouts _ hending

theorem not_isConnect_of_stage {e : Event} (h : 1 ≤ e.stage) : e.isConnect = false := by
  unfold Event.isConnect
  split
  · cases h
  · rfl

theorem not_isShutdown_of_stage {e : Event} (h : e.stage ≤ 3) : e.isShutdown = false := by
  unfold Event.isShutdown
  split
  · cases Nat.lt_irrefl 3 h
  · rfl

theorem eq_shutdown {e : Event} (h : e.isShutdown = true) : ∃ answer, e = .service .shutdown answer := by
  unfold Event.isShutdown at h
  split at h
  · exact ⟨_, rfl⟩
  · cases h

theorem not_isWrite {e : Event} (h : e.isFlush = true ∨ e.isRead = true) : e.isWrite = false := by
  unfold Event.isWrite
  split
  · rcases h with h | h <;> cases h
  · rfl

/-- What becomes of an open connection after the exchange. The shutdown is cut off by the caller alone. -/
inductive ClosingTime (deadline : Nat) (mid : Scene σ) :
    Ending KmsError Unit → List (Moment σ) → Scene σ → Ending KmsError Unit → Prop where
  | abandoned : ClosingTime deadline mid .expired [] mid .expired
  | hung {outcome : Ending KmsError Unit} (houtcome : outcome ≠ .expired) {last : Scene σ}
      (hlast : last.now = deadline) :
      ClosingTime deadline mid outcome [⟨mid, .service .shutdown none, last⟩] last .expired
  | shut {outcome : Ending KmsError Unit} (houtcome : outcome ≠ .expired) (answer : Except Fault Unit)
      (last : Scene σ) :
      ClosingTime deadline mid outcome [⟨mid, .service .shutdown (some answer), last⟩] last outcome

namespace ClosingTime

variable {deadline : Nat} (h : ClosingTime deadline mid outcome closing last ending)
include h

theorem all_shutdown : ∀ m ∈ closing, m.event.isShutdown = true := by
  cases h with
  | abandoned => exact List.forall_mem_nil _
  | hung houtcome hlast => exact List.forall_mem_singleton.2 rfl
  | shut houtcome answer last => exact List.forall_mem_singleton.2 rfl

theorem cut_at : ∀ m ∈ closing, m.event.isCut = true → m.ended.now = deadline := by
  cases h with
  | abandoned => exact List.forall_mem_nil _
  | hung houtcome hlast => exact List.forall_mem_singleton.2 fun _ => hlast
  | shut houtcome answer last => exact List.forall_mem_singleton.2 nofun

/-- A call that is neither the first nor a shutdown is one between them. -/
theorem mem_calls {p : Event → Prop} {first m : Moment σ} (hfirst : ¬ p first.event)
    (hshutdown : ∀ answer, ¬ p (.service .shutdown answer)) (hm : m ∈ first :: calls ++ closing)
    (hp : p m.event) : m ∈ calls := by
  rcases List.mem_append.1 hm with hm | hm
  · refine (List.mem_cons.1 hm).resolve_left fun heq => ?_
    rw [heq] at hp
    exact hfirst hp
  · obtain ⟨answer, hevent⟩ := eq_shutdown (h.all_shutdown m hm)
    rw [hevent] at hp
    exact absurd hp (hshutdown answer)

theorem outcome_of_waited (hmoments : ∀ m ∈ moments, m.event.isShutdown = false)
    (hwaited : Waited (moments ++ closing) ending) : outcome ≠ .expired := by
  cases h with
  | abandoned =>
    obtain ⟨m, hm, hshutdown⟩ := hwaited rfl
    rw [List.append_nil] at hm
    exact absurd hshutdown (Bool.eq_false_iff.1 (hmoments m hm))
  | hung houtcome hlast => exact houtcome
  | shut houtcome answer last => exact houtcome

end ClosingTime

/-- The calls of a round trip in three parts: the connect, the exchange and the shutdown. -/
inductive Timed (setting : Setting σ) (s : StreamService) (request : KeyRequest) (scene : Scene σ) :
    List (Moment σ) → Scene σ → Ending KmsError Unit → Prop where
  | refused (e : KmsError) : Timed setting s request scene [] scene (.failed e)
  | unopened {host : String} {port : Nat} {moments : List (Moment σ)} {last : Scene σ}
      {ending : Ending KmsError Unit}
      (h : OneCall setting.world (.connect host port) s.connectLimit setting.deadline scene moments last ending)
      (hunopened : .service (.connect host port) (some (.ok ())) ∉ moments.map Moment.event) :
      Timed setting s request scene moments last ending
  | opened {host : String} {port : Nat} {first : Moment σ} {opened mid last : Scene σ} {calls closing : List (Moment σ)}
      {outcome ending : Ending KmsError Unit}
      (hfirst : first = ⟨scene, .service (.connect host port) (some (.ok ())), opened⟩)
      (hlimited : first.Limited setting.world s.connectLimit) (hopened : opened.now ≤ scene.now + s.connectLimit)
      (hexchange : ExchangeLimited setting.world s setting.deadline request.message opened calls mid outcome)
      (hstage : ∀ m ∈ calls, 1 ≤ m.event.stage ∧ m.event.stage ≤ 3)
      (hclosing : ClosingTime setting.deadline mid outcome closing last ending) :
      Timed setting s request scene (first :: calls ++ closing) last ending

/-- Where a connection was opened. -/
theorem timely_of_opened {host : String} {port : Nat} {first : Moment σ}
    (hfirst : first = ⟨scene, .service (.connect host port) (some (.ok ())), opened⟩)
    (hlimited : first.Limited setting.world s.connectLimit) (hopened : opened.now ≤ scene.now + s.connectLimit)
    (hexchange : ExchangeLimited setting.world s setting.deadline request.message opened calls mid outcome)
    (hstage : ∀ m ∈ calls, 1 ≤ m.event.stage ∧ m.event.stage ≤ 3)
    (hclosing : ClosingTime setting.deadline mid outcome closing last ending)
    (hroundTrip : RoundTrip s request ((first :: calls ++ closing).map Moment.event) ending) :
    Timely setting s request scene (first :: calls ++ closing) last ending := by
  have hover : mid.now ≤ scene.now + s.timeBound := by
    have hmid := hexchange.by_then.ended
    unfold timeBound
    omega
  have hbefore : ∀ m ∈ first :: calls, m.event.isShutdown = false := by
    refine List.forall_mem_cons.2 ⟨hfirst ▸ rfl, fun m hm => not_isShutdown_of_stage (hstage m hm).2⟩
  have hwaits : Waited (first :: calls ++ closing) ending → outcome ≠ .expired := hclosing.outcome_of_waited hbefore
  constructor
  case disciplined => exact hroundTrip.disciplined
  case opens =>
    subst hfirst
    intro address hopen haddress
    obtain ⟨rfl, rfl⟩ := hroundTrip.disciplined.connects_to hopen haddress
    exact ⟨_, _, _, rfl⟩
  case connectLate =>
    subst hfirst
    intro address hopen haddress hwaited
    obtain ⟨rfl, rfl⟩ := hroundTrip.disciplined.connects_to hopen haddress
    have hshutdown (hexpired : ending = .expired) : ∃ m ∈ calls ++ closing, m.event.isShutdown = true := by
      obtain ⟨m, hm, hm'⟩ := hwaited hexpired
      refine ⟨m, (List.mem_cons.1 hm).resolve_left ?_, hm'⟩
      rintro rfl
      cases hm'
    have hlate := late_iff_exceeds (calls ++ closing) hlimited hroundTrip.disciplined hopen haddress hshutdown
    exact ⟨hlate, fun hfailed => absurd (hlimited.cut_iff.2 (hlate.1 hfailed)) Bool.false_ne_true⟩
  case decided =>
    -- the outcome is decided when the shutdown begins, so that the time of the shutdown does not count
    cases hclosing with
    | abandoned =>
      rw [List.append_nil]
      exact .inl ⟨hover, hbefore⟩
    | hung houtcome hlast => exact .inr ⟨_, _, rfl, rfl, hover, hbefore⟩
    | shut houtcome answer last => exact .inr ⟨_, _, rfl, rfl, hover, hbefore⟩
  case connect =>
    intro hwaited m hm hconnect
    rcases List.mem_append.1 hm with hm | hm
    · rcases List.mem_cons.1 hm with rfl | hm
      · exact ⟨hfirst ▸ rfl, hlimited⟩
      · exact absurd hconnect (Bool.eq_false_iff.1 (not_isConnect_of_stage (hstage m hm).1))
    · obtain ⟨answer, hevent⟩ := eq_shutdown (hclosing.all_shutdown m hm)
      rw [hevent] at hconnect
      cases hconnect
  case writes =>
    rintro hwaited host' port' opened' later hmoments
    obtain ⟨heq, rfl⟩ := List.cons.inj hmoments
    rw [hfirst] at heq
    cases heq
    have hcalls : ∀ m ∈ calls ++ closing, m.event.isWrite = true → m ∈ calls := fun m hm =>
      hclosing.mem_calls (p := fun e => e.isWrite = true) (hfirst ▸ Bool.false_ne_true)
        (fun _ => Bool.false_ne_true) (List.mem_cons_of_mem first hm)
    rw [← hexchange.writes_cut_iff (hwaits hwaited)]
    refine ⟨⟨?_, ?_⟩, fun m hm hwrite => ?_⟩
    · rintro ⟨m, hm, hwrite, hcut⟩
      exact ⟨m, hcalls m hm hwrite, hwrite, hcut⟩
    · rintro ⟨m, hm, hwrite, hcut⟩
      exact ⟨m, List.mem_append_left _ hm, hwrite, hcut⟩
    · exact hexchange.writes_cut_at (hwaits hwaited) m (hcalls m hm hwrite) hwrite
  case each =>
    intro hwaited m hm hcall
    have hmem : m ∈ calls := by
      refine hclosing.mem_calls (p := fun e => e.isFlush = true ∨ e.isRead = true) ?_ (fun answer => ?_) hm hcall
      · rw [hfirst]
        exact not_or.2 ⟨Bool.false_ne_true, Bool.false_ne_true⟩
      · exact not_or.2 ⟨Bool.false_ne_true, Bool.false_ne_true⟩
    exact hexchange.limited (hwaits hwaited) m hmem (not_isWrite hcall)
  case shutdown =>
    intro m hm hshutdown hcut
    rcases List.mem_append.1 hm with hm | hm
    · exact absurd hshutdown (Bool.eq_false_iff.1 (hbefore m hm))
    · exact hclosing.cut_at m hm hcut
  case abandoned =>
    intro hle hexpired
    cases hclosing with
    | abandoned =>
      -- the caller gave up during the exchange, which is over by a deadline that the caller waits for
      have hlt := hexchange.by_then.abandoned rfl
      unfold timeBound at hle
      omega
    | hung houtcome hlast => exact ⟨_, _, rfl, rfl⟩
    | shut houtcome answer last => exact absurd hexpired houtcome
  case ends => exact hroundTrip.callsOf.ends
  case timeouts => exact fun hending name operation => hroundTrip.disciplined.timeouts _ hending

theorem Connecting.of_stop {stop : Stop KmsError} (h : Connecting s request t stop.ending) {host : String}
    {port : Nat} : .service (.connect host port) (some (.ok ())) ∉ t := by
  generalize hstop : (stop.ending : Ending KmsError Unit) = ending at h
  cases h with
  | connected h => cases stop <;> cases hstop
  | _ => simp

theorem Connecting.of_done (h : Connecting s request t (.done ())) :
    ∃ host port, t = [.service (.connect host port) (some (.ok ()))] := by
  cases h with
  | connected h => exact ⟨_, _, rfl⟩

/-- The connect is refused without a call, or it is one call under its limit. -/
theorem records_connect (s : StreamService) (request : KeyRequest) (setting : Setting σ) (scene : Scene σ) :
    Records setting (s.connect request) scene fun moments last ending =>
      (moments = [] ∧ last = scene ∧ ∃ e, ending = .failed e) ∨
        ∃ host port, OneCall setting.world (.connect host port) s.connectLimit setting.deadline scene moments last
          ending := by
  unfold connect
  by_cases hclosed : s.closed = true
  · rw [if_pos hclosed]
    exact records_fail (.inl ⟨rfl, rfl, _, rfl⟩)
  rw [if_neg hclosed]
  cases Address.parse request.host with
  | error e => exact records_fail (.inl ⟨rfl, rfl, e, rfl⟩)
  | ok address =>
    refine Records.mono (P := OneCall setting.world (.connect address.host address.port) s.connectLimit
      setting.deadline scene) ?_ fun moments last ending h => .inr ⟨_, _, h⟩
    refine (records_inTime_call _ _ _ _ setting scene).bind ?_ ?_
    · intro moments last answer h
      refine records_of_value ?_ fun ending hending => ?_
      · cases answer with
        | error cause => exact .inr ⟨_, rfl⟩
        | ok value => exact .inl ⟨value, rfl⟩
      · rw [List.append_nil]
        exact h.of_expired_iff (iff_of_false hending nofun)
    · intro moments last stop h
      exact h.of_expired_iff stop.ending_eq_expired_iff

/-- The outcome of an exchange is a value, or the caller gave up. -/
theorem Exchange.caught_eq {ending : Ending KmsError (Except KmsError Unit)} (h : Exchange s request t outcome)
    (hending : ending = outcome.caught) :
    (∃ value : Except KmsError Unit, ending = .done value ∧ outcome = .ofExcept value) ∨
      (ending = .expired ∧ outcome = .expired) := by
  cases outcome with
  | done a => exact .inl ⟨.ok a, hending, rfl⟩
  | failed e => exact .inl ⟨.error e, hending, rfl⟩
  | expired => exact .inr ⟨hending, rfl⟩
  | unfinished => exact absurd rfl h.callsOf.ends

/-- The shutdown comes after an outcome, and does not change it. -/
theorem records_shutdown (value : Except KmsError Unit) (setting : Setting σ) (scene : Scene σ) :
    Records setting (await .shutdown >>= fun _ => ofExcept value) scene
      (ClosingTime setting.deadline scene (.ofExcept value)) := by
  have hwaits : (Ending.ofExcept value : Ending KmsError Unit) ≠ .expired := by
    cases value <;> exact nofun
  refine records_await (fun last _ hlast => .hung hwaits hlast) fun answer last _ _ => ?_
  cases value with
  | error e => exact records_fail (.shut hwaits answer last)
  | ok value => exact records_pure (.shut hwaits answer last)

/-- What follows an open connection is the exchange, and then the shutdown. -/
theorem records_opened (s : StreamService) (request : KeyRequest) (setting : Setting σ) (opened : Scene σ) :
    Records setting (attempt (s.exchange request) >>= fun outcome => await .shutdown >>= fun _ => ofExcept outcome)
      opened fun moments last ending => ∃ calls mid outcome closing, moments = calls ++ closing ∧
        ExchangeLimited setting.world s setting.deadline request.message opened calls mid outcome ∧
        (∀ m ∈ calls, 1 ≤ m.event.stage ∧ m.event.stage ≤ 3) ∧
        ClosingTime setting.deadline mid outcome closing last ending := by
  have hexchange : Records setting (attempt (s.exchange request) : Action σ KmsError _) opened
      fun calls mid ending => ∃ outcome : Ending KmsError Unit, ending = outcome.caught ∧
        ExchangeLimited setting.world s setting.deadline request.message opened calls mid outcome ∧
        Exchange s request (calls.map Moment.event) outcome :=
    records_attempt (((records_exchange s request setting opened).trace (yields_exchange s request)).mono
      fun calls mid outcome h => ⟨outcome, rfl, h⟩)
  refine hexchange.bind ?_ ?_
  · rintro calls mid value ⟨outcome, hcaught, hlimits, hcalls⟩
    have hstage := fun m hm => hcalls.stage (Moment.event m) (List.mem_map_of_mem hm)
    rcases hcalls.caught_eq hcaught with ⟨value', hvalue, rfl⟩ | ⟨hexpired, -⟩
    · cases hvalue
      exact (records_shutdown value setting mid).mono fun closing last ending hclosing =>
        ⟨calls, mid, _, closing, rfl, hlimits, hstage, hclosing⟩
    · cases hexpired
  · rintro calls mid stop ⟨outcome, hcaught, hlimits, hcalls⟩
    have hstage := fun m hm => hcalls.stage (Moment.event m) (List.mem_map_of_mem hm)
    rcases hcalls.caught_eq hcaught with ⟨value, hvalue, -⟩ | ⟨hexpired, rfl⟩
    · cases stop <;> cases hvalue
    · cases stop <;> cases hexpired
      exact ⟨calls, mid, _, [], (List.append_nil calls).symm, hlimits, hstage, .abandoned⟩

theorem records_decryptKey (s : StreamService) (request : KeyRequest) (setting : Setting σ) (scene : Scene σ) :
    Records setting (s.decryptKey request) scene (Timed setting s request scene) := by
  refine ((records_connect s request setting scene).trace (yields_connect s request)).bind ?_ ?_
  · rintro moments opened _ ⟨⟨-, -, e, hfailed⟩ | ⟨host, port, hconnect⟩, hconnecting⟩
    · cases hfailed
    obtain ⟨host', port', hevents⟩ := hconnecting.of_done
    obtain ⟨answer, rfl⟩ := hconnect.single
    obtain ⟨hevent, -⟩ := List.cons.inj hevents
    cases hevent
    have hlimited := List.forall_mem_singleton.1 (hconnect.limited nofun)
    refine (records_opened s request setting opened).mono ?_
    rintro _ last ending ⟨calls, mid, outcome, closing, rfl, hlimits, hstage, hclosing⟩
    rw [← List.append_assoc, List.singleton_append]
    exact .opened rfl hlimited hconnect.by_then.ended hlimits hstage hclosing
  · rintro moments last stop ⟨⟨rfl, rfl, e, hfailed⟩ | ⟨host, port, hconnect⟩, hconnecting⟩
    · rw [hfailed]
      exact .refused e
    · exact .unopened hconnect hconnecting.of_stop

/-- Whatever connect, write, flush and reads do, a round trip keeps to its limits, and reports each that is reached. -/
theorem decryptKey_timely (s : StreamService) (request : KeyRequest) (setting : Setting σ) (scene : Scene σ) :
    Records setting (s.decryptKey request) scene (Timely setting s request scene) := by
  refine ((records_decryptKey s request setting scene).trace (yields_decryptKey s request)).mono ?_
  rintro moments last ending ⟨htimed, hroundTrip⟩
  cases htimed with
  | refused e => exact timely_of_refused hroundTrip
  | unopened h hunopened => exact timely_of_unopened h hroundTrip hunopened
  | opened hfirst hlimited hopened hexchange hstage hclosing =>
    exact timely_of_opened hfirst hlimited hopened hexchange hstage hclosing hroundTrip

/-- A scripted world in which a connect takes its time, or never ends. -/
def connectingIn (delay : Option Nat) : World Client.Script where
  engine := Client.scripted.engine
  service
    | .connect _ _, _, s => ⟨s, delay.map fun time => (time, .ok (), s)⟩
    | call, now, s => Client.scripted.service call now s

/-- A round trip that may take five milliseconds to connect. -/
def connectingRun (delay : Option Nat) : Run Client.Script KmsError Unit :=
  decryptKey ⟨5, 3, 16, false⟩ Client.scriptedRequest ⟨connectingIn delay, 100, 3⟩ ⟨0, ⟨[], [], 0⟩⟩

example : connectingRun none =
    ⟨.failed (.timeout "localhost" "connect"), [.service (.connect "localhost" 443) none], ⟨5, ⟨[], [], 0⟩⟩⟩ := by
  rfl

/-- An answer that comes just as the limit is reached is in time. -/
example : (connectingRun (some 5)).ending = .done () ∧
    (connectingRun (some 6)).ending = .failed (.timeout "localhost" "connect") := by
  constructor <;> cbv

end StreamService

end FieldSeal
