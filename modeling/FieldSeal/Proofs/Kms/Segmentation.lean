import Mathlib.Algebra.GroupWithZero.Nat
import Mathlib.Data.List.Permutation
import FieldSeal.Proofs.Client.Scripted
import FieldSeal.Proofs.Kms.Orderly

/-!
Responses that come in pieces. A decryptor wants a response in phases, and a stream brings its bytes up to some
end. What becomes of the round trip depends on the phases, the bytes and the response limit, and not on how the
stream is cut into reads.
-/

namespace FieldSeal

namespace StreamService

open FieldSeal.Action FieldSeal.Trace

variable {σ : Type} {s : StreamService} {request : KeyRequest} {host : String} {room : Nat} {phases : List Nat}
  {response : Bytes} {t earlier later whole : List Event} {ending : Ending KmsError Unit}

/-- What is left of the phase that a position falls in; nothing is left after the last phase. -/
def outstanding : List Nat → Nat → Nat
  | [], _ => 0
  | length :: rest, position =>
    if position < length then length - position else outstanding rest (position - length)

theorem outstanding_eq_zero_iff (phases : List Nat) (position : Nat) :
    outstanding phases position = 0 ↔ phases.sum ≤ position := by
  induction phases generalizing position with
  | nil => simp [outstanding]
  | cons length rest ih =>
    rw [outstanding, List.sum_cons]
    split
    · omega
    · rw [ih]
      omega

theorem add_outstanding_le (phases : List Nat) (position : Nat) (h : position ≤ phases.sum) :
    position + outstanding phases position ≤ phases.sum := by
  induction phases generalizing position with
  | nil => exact h
  | cons length rest ih =>
    rw [List.sum_cons] at h ⊢
    rw [outstanding]
    split
    · omega
    · have hrest := ih (position - length) (by omega)
      omega

/-- How a decryptor and a stream answer a call, after the calls before it: what is needed is the rest of a phase, every
feed is taken, a read brings the next bytes or the end, and the shutdown does not hang. -/
def Forthcoming (phases : List Nat) (response : Bytes) (before : List Event) : Event → Prop
  | .engine .bytesNeeded needed => needed = outstanding phases (fedCount before)
  | .engine (.feed _) answer => answer = .ok ()
  | .service (.read _) answer => ∃ bytes, answer = some (.ok bytes) ∧
      (got before).flatten ++ bytes.val <+: response ∧ (bytes.val = [] → (got before).flatten = response)
  | .service .shutdown answer => answer ≠ none
  | _ => True

/-- A round trip whose message is sent, with a decryptor that wants its response in phases and a stream that brings
the bytes of a response, in pieces of any lengths, and then its end. -/
structure Delivers (phases : List Nat) (response : Bytes) (t : List Event) : Prop where
  sent : .service .flush (some (.ok ())) ∈ t
  forthcoming : ∀ before e after, t = before ++ e :: after → Forthcoming phases response before e

/-- What becomes of a response, and which of its bytes are fed. -/
def settlement (host : String) (phases : List Nat) (response : Bytes) (limit : Nat) :
    Ending KmsError Unit × Bytes :=
  if phases.sum ≤ limit ∧ phases.sum ≤ response.length then (.done (), response.take phases.sum)
  else if response.length < limit then
    (.failed (.unexpectedEnd host (outstanding phases response.length)), response)
  else (.failed (.responseTooLarge host limit), response.take limit)

/-- Calls that take in a response: what was read is fed, no read came upon the end, and no phase is exceeded. -/
structure Intake (phases : List Nat) (response : Bytes) (t : List Event) : Prop where
  fed_eq_got : fed t = got t
  fed_prefix : (fed t).flatten <+: response
  fed_le : fedCount t ≤ phases.sum
  brought : ∀ (want : Nat) (bytes : { bytes : Bytes // bytes.length ≤ want }),
    .service (.read want) (some (.ok bytes)) ∈ t → bytes.val ≠ []

/-- A response is settled, with nothing read that is not fed. -/
structure SettledAs (host : String) (phases : List Nat) (response : Bytes) (limit : Nat) (t : List Event)
    (ending : Ending KmsError Unit) : Prop where
  outcome : (ending, (fed t).flatten) = settlement host phases response limit
  fed_eq_got : (fed t).flatten = (got t).flatten
  /-- A response that is complete is not read any further, not even to its end. -/
  complete : ending = .done () → ∀ (want : Nat) (bytes : { bytes : Bytes // bytes.length ≤ want }),
    .service (.read want) (some (.ok bytes)) ∈ t → bytes.val ≠ []

theorem fed_asked (t : List Event) (needed : Nat) : fed (t ++ [.engine .bytesNeeded needed]) = fed t := by
  simp [fed, Event.fed?]

theorem got_asked (t : List Event) (needed : Nat) : got (t ++ [.engine .bytesNeeded needed]) = got t := by
  simp [got, Event.got?]

namespace Intake

variable {limit : Nat}

theorem fedCount_le (h : Intake phases response t) : fedCount t ≤ response.length :=
  h.fed_prefix.length_le

theorem fed_eq_take (h : Intake phases response t) : (fed t).flatten = response.take (fedCount t) :=
  List.prefix_iff_eq_take.1 h.fed_prefix

/-- A turn takes in no more than is left of the current phase. -/
theorem turn {needed : Nat} {bytes : { bytes : Bytes // bytes.length ≤ want needed room }}
    (h : Intake phases response t) (hphase : needed = outstanding phases (fedCount t)) (hneeded : 0 < needed)
    (hroom : 0 < room) (hnext : (got t).flatten ++ bytes.val <+: response) (hbytes : bytes.val ≠ []) :
    Intake phases response (t ++ turnCalls needed room bytes) where
  fed_eq_got := by
    rw [fed_append, got_append, h.fed_eq_got, (turnCalls_calls bytes hneeded hroom hbytes).fed_eq_got]
  fed_prefix := by
    rw [fed_append, fed_turnCalls, List.flatten_append, List.flatten_singleton, h.fed_eq_got]
    exact hnext
  fed_le := by
    -- no read asks for more than is left of a phase, so none goes beyond its end
    have hlength : bytes.val.length ≤ needed := Nat.le_trans bytes.property (want_le_needed needed room)
    have hsum := add_outstanding_le phases (fedCount t) h.fed_le
    rw [fedCount_append, fedCount_turnCalls]
    omega
  brought := by
    intro w chunk hmem
    rcases List.mem_append.1 hmem with hmem | hmem
    · exact h.brought w chunk hmem
    · rcases List.mem_cons.1 hmem with he | hmem
      · cases he
      · rcases List.mem_cons.1 hmem with he | hmem
        · cases he
          exact hbytes
        · cases List.mem_singleton.1 hmem

/-- All that the phases want is taken in. -/
theorem satisfied (h : Intake phases response t) (hroom : fedCount t ≤ limit)
    (hneeded : outstanding phases (fedCount t) = 0) :
    SettledAs host phases response limit (t ++ [.engine .bytesNeeded 0]) (.done ()) where
  outcome := by
    have hall : fedCount t = phases.sum := Nat.le_antisymm h.fed_le ((outstanding_eq_zero_iff _ _).1 hneeded)
    have hlength := h.fedCount_le
    rw [fed_asked, h.fed_eq_take, hall, settlement, if_pos ⟨by omega, by omega⟩]
  fed_eq_got := by rw [fed_asked, got_asked, h.fed_eq_got]
  complete _ want bytes hmem := by
    rcases List.mem_append.1 hmem with hmem | hmem
    · exact h.brought want bytes hmem
    · cases List.mem_singleton.1 hmem

/-- The phases want more than the limit allows. -/
theorem full {needed : Nat} (h : Intake phases response t) (hroom : fedCount t = limit)
    (hneeded : outstanding phases (fedCount t) ≠ 0) :
    SettledAs host phases response limit (t ++ [.engine .bytesNeeded needed])
      (.failed (.responseTooLarge host limit)) where
  outcome := by
    have hmore : ¬ phases.sum ≤ fedCount t := mt (outstanding_eq_zero_iff _ _).2 hneeded
    have hlength := h.fedCount_le
    rw [fed_asked, h.fed_eq_take, hroom, settlement, if_neg (by omega), if_neg (by omega)]
  fed_eq_got := by rw [fed_asked, got_asked, h.fed_eq_got]
  complete := nofun

/-- The phases want more than the stream brings. -/
theorem ended {needed : Nat} {bytes : { bytes : Bytes // bytes.length ≤ want needed room }}
    (h : Intake phases response t) (hlimit : fedCount t < limit) (hphase : needed = outstanding phases (fedCount t))
    (hneeded : 0 < needed) (hroom : 0 < room) (hbytes : bytes.val = []) (hend : (got t).flatten = response) :
    SettledAs host phases response limit
      (t ++ [.engine .bytesNeeded needed, .service (.read (want needed room)) (some (.ok bytes))])
      (.failed (.unexpectedEnd host needed)) where
  outcome := by
    have hmore : ¬ phases.sum ≤ fedCount t := mt (outstanding_eq_zero_iff _ _).2 (by omega)
    have hall : (fed t).flatten = response := by rw [h.fed_eq_got, hend]
    have hlength : fedCount t = response.length := congrArg List.length hall
    have hfed : fed (t ++ [.engine .bytesNeeded needed,
        .service (.read (want needed room)) (some (.ok bytes))]) = fed t := by simp [fed, Event.fed?]
    -- the whole response is fed, so the phase in progress is the one that its end falls in
    rw [hfed, hall, hphase, hlength, settlement, if_neg (by omega), if_pos (by omega)]
  fed_eq_got := by
    have hcalls : TurnCalls room [.engine .bytesNeeded needed,
        .service (.read (want needed room)) (some (.ok bytes))] :=
      .read hneeded hroom (some (.ok bytes)) (if_pos hbytes)
    rw [fed_append, got_append, h.fed_eq_got, hcalls.fed_eq_got]
  complete := nofun

end Intake

section Settling

variable (hforthcoming : ∀ before e after, whole = before ++ e :: after → Forthcoming phases response before e)
include hforthcoming

/-- The loop ends when the phases are complete, when the response is, or when there is no room. -/
theorem LastTurn.settledAs (h : LastTurn s host room t ending) (hwhole : whole = earlier ++ (t ++ later))
    (hintake : Intake phases response earlier) (hroom : fedCount earlier + room = s.responseLimit) :
    SettledAs host phases response s.responseLimit (earlier ++ t) ending := by
  cases h with
  | satisfied =>
    have hphase := hforthcoming earlier (.engine .bytesNeeded 0) later hwhole
    exact hintake.satisfied (by omega) hphase.symm
  | @full needed hneeded hnone =>
    have hphase := hforthcoming earlier (.engine .bytesNeeded needed) later hwhole
    exact hintake.full (by omega) fun hzero => Nat.ne_of_gt hneeded (hphase.trans hzero)
  | @ended needed hneeded hpos bytes hbytes =>
    have hphase := hforthcoming earlier (.engine .bytesNeeded needed) _ hwhole
    obtain ⟨chunk, hanswer, -, hend⟩ := hforthcoming (earlier ++ [.engine .bytesNeeded needed])
      (.service (.read (want needed room)) (some (.ok bytes))) later (by simp [hwhole])
    cases hanswer
    rw [got_asked] at hend
    exact hintake.ended (by omega) hphase hneeded hpos hbytes (hend hbytes)
  -- the other ways out are by answers that such a decryptor and such a stream do not give
  | @rejected needed hneeded hpos bytes hbytes e =>
    have haccepted := hforthcoming (earlier ++ [.engine .bytesNeeded needed,
      .service (.read (want needed room)) (some (.ok bytes))]) (.engine (.feed bytes.val) (.error e)) later
      (by simp [hwhole])
    cases haccepted
  | @broken needed hneeded hpos cause =>
    obtain ⟨chunk, hanswer, -⟩ := hforthcoming (earlier ++ [.engine .bytesNeeded needed])
      (.service (.read (want needed room)) (some (.error cause))) later (by simp [hwhole])
    cases hanswer
  | @late needed hneeded hpos =>
    obtain ⟨chunk, hanswer, -⟩ := hforthcoming (earlier ++ [.engine .bytesNeeded needed])
      (.service (.read (want needed room)) none) later (by simp [hwhole])
    cases hanswer
  | @abandoned needed hneeded hpos =>
    obtain ⟨chunk, hanswer, -⟩ := hforthcoming (earlier ++ [.engine .bytesNeeded needed])
      (.service (.read (want needed room)) none) later (by simp [hwhole])
    cases hanswer

/-- The induction is on the turns: each takes in more of the same response. -/
theorem Receipt.settledAs (h : Receipt s host room t ending) (hwhole : whole = earlier ++ (t ++ later))
    (hintake : Intake phases response earlier) (hroom : fedCount earlier + room = s.responseLimit) :
    SettledAs host phases response s.responseLimit (earlier ++ t) ending := by
  induction h generalizing earlier with
  | last h => exact h.settledAs hforthcoming hwhole hintake hroom
  | @next room needed bytes t ending hneeded hpos hbytes hrest ih =>
    have hphase : needed = outstanding phases (fedCount earlier) :=
      hforthcoming earlier (.engine .bytesNeeded needed) _ hwhole
    obtain ⟨chunk, hanswer, hnext, -⟩ := hforthcoming (earlier ++ [.engine .bytesNeeded needed])
      (.service (.read (want needed room)) (some (.ok bytes))) (.engine (.feed bytes.val) (.ok ()) :: (t ++ later))
      (by simp [hwhole, turnCalls])
    cases hanswer
    rw [got_asked] at hnext
    have hlength := length_le_room bytes
    have hmore : Intake phases response (earlier ++ turnCalls needed room bytes) :=
      hintake.turn hphase hneeded hpos hnext hbytes
    have hfed : fedCount (earlier ++ turnCalls needed room bytes) = fedCount earlier + bytes.val.length := by
      rw [fedCount_append, fedCount_turnCalls]
    rw [← List.append_assoc]
    exact ih (by simp [hwhole]) hmore (by omega)

end Settling

theorem SettledAs.ne_expired {limit : Nat} (h : SettledAs host phases response limit t ending) :
    ending ≠ .expired := by
  rintro rfl
  have houtcome := h.outcome
  rw [settlement] at houtcome
  split at houtcome
  · cases houtcome
  · split at houtcome <;> cases houtcome

/-- The shutdown takes nothing in. -/
theorem SettledAs.shut {limit : Nat} (h : SettledAs host phases response limit t ending)
    (answer : Option (Except Fault Unit)) :
    SettledAs host phases response limit (t ++ [.service .shutdown answer]) ending := by
  have hfed : fed (t ++ [.service .shutdown answer]) = fed t := by simp [fed, Event.fed?]
  have hgot : got (t ++ [.service .shutdown answer]) = got t := by simp [got, Event.got?]
  refine ⟨?_, ?_, fun hending want bytes hmem => ?_⟩
  · rw [hfed, h.outcome]
  · rw [hfed, hgot, h.fed_eq_got]
  · rcases List.mem_append.1 hmem with hmem | hmem
    · exact h.complete hending want bytes hmem
    · cases List.mem_singleton.1 hmem

/-- A message whose flush succeeded is sent. -/
theorem Sending.of_flushed (h : Sending request t ending) (hflush : .service .flush (some (.ok ())) ∈ t) :
    ending = .done () := by
  cases h with
  | unwritten h hending => cases h.not_isFlush _ hflush
  | written hwritten h =>
    rcases List.mem_append.1 hflush with hflush | hflush
    · cases hwritten.not_isFlush _ hflush
    · cases h with
      | flushed => rfl
      | _ => cases List.mem_singleton.1 hflush

section Opened

variable {name : String} {port : Nat} {reply : Option (Except Fault Unit)}

theorem fed_opened (ht : ∀ e ∈ t, e.isSending = true) : fed (.service (.connect name port) reply :: t) = [] :=
  fed_of_isSending ht (t := t)

/-- Nothing is taken in before the message is sent. -/
theorem intake_opened (ht : ∀ e ∈ t, e.isSending = true) :
    Intake phases response (.service (.connect name port) reply :: t) where
  fed_eq_got := (fed_opened ht).trans (got_of_isSending ht (t := t)).symm
  fed_prefix := by
    rw [fed_opened ht]
    exact List.nil_prefix
  fed_le := by
    rw [fedCount, fed_opened ht]
    exact Nat.zero_le _
  brought := by
    intro want bytes hmem
    rcases List.mem_cons.1 hmem with he | hmem
    · cases he
    · cases ht _ hmem

theorem Exchange.settledAs (h : Exchange s request t ending)
    (hwhole : whole = .service (.connect name port) reply :: (t ++ later)) (hdelivers : Delivers phases response whole)
    (hlater : .service .flush (some (.ok ())) ∉ later) :
    SettledAs request.host phases response s.responseLimit (.service (.connect name port) reply :: t) ending := by
  have hflush : .service .flush (some (.ok ())) ∈ t := by
    have hsent := hdelivers.sent
    rw [hwhole] at hsent
    rcases List.mem_cons.1 hsent with he | hmem
    · cases he
    · exact (List.mem_append.1 hmem).resolve_right hlater
  cases h with
  | unsent h hending => exact absurd (h.of_flushed hflush) hending
  | received hsent h =>
    -- nothing is taken in while the message is sent, so the loop has all of the limit as its room
    have hparts := hwhole.trans (congrArg (List.cons _) (List.append_assoc _ _ later))
    refine h.settledAs hdelivers.forthcoming hparts (intake_opened hsent.callsOf.only) ?_
    rw [fedCount, fed_opened hsent.callsOf.only]
    exact Nat.zero_add _

end Opened

theorem RoundTrip.settledAs (h : RoundTrip s request t ending) (hdelivers : Delivers phases response t) :
    SettledAs request.host phases response s.responseLimit t ending := by
  cases h with
  | unconnected h =>
    -- without a connection there is no flush
    have hsent := hdelivers.sent
    generalize Stop.ending _ = stopped at h
    cases h <;> simp at hsent
  | abandoned hconnect h =>
    cases hconnect with
    | connected hreaches =>
      have hsettled := h.settledAs (List.append_nil _).symm hdelivers List.not_mem_nil
      exact absurd rfl hsettled.ne_expired
  | @hung t u ending hconnect h hends =>
    have hshut := hdelivers.forthcoming (t ++ u) (.service .shutdown none) [] (by simp)
    exact absurd rfl hshut
  | shut hconnect h hends answer =>
    cases hconnect with
    | connected hreaches => exact (h.settledAs rfl hdelivers (by simp)).shut (some answer)

/-- Two round trips in which the same response is cut in different ways come to the same. -/
theorem RoundTrip.eq_of_delivers {other : StreamService} {u : List Event} {ending' : Ending KmsError Unit}
    (h : RoundTrip s request t ending) (h' : RoundTrip other request u ending')
    (hlimit : s.responseLimit = other.responseLimit) (ht : Delivers phases response t)
    (hu : Delivers phases response u) : ending = ending' ∧ (fed t).flatten = (fed u).flatten := by
  have houtcome := (h.settledAs ht).outcome
  rw [hlimit, ← (h'.settledAs hu).outcome] at houtcome
  exact ⟨congrArg Prod.fst houtcome, congrArg Prod.snd houtcome⟩

/-- The outcome of a round trip does not depend on how the response is cut into reads: it is that of the phases that
are wanted, the bytes that come and the limit on them. -/
theorem decryptKey_segmentation_independent (s : StreamService) (request : KeyRequest) (setting : Setting σ)
    (scene : Scene σ) (phases : List Nat) (response : Bytes)
    (h : Delivers phases response (s.decryptKey request setting scene).trace) :
    SettledAs request.host phases response s.responseLimit (s.decryptKey request setting scene).trace
      (s.decryptKey request setting scene).ending :=
  (yields_decryptKey s request scene).settledAs h

/-- Where one response is brought by two streams, in worlds of their own and cut into reads as each likes, two services
with the same limit on it feed the same bytes and come to the same end. -/
theorem decryptKey_eq_of_delivers {τ : Type} {s other : StreamService} (hlimit : s.responseLimit = other.responseLimit)
    (request : KeyRequest) (setting : Setting σ) (scene : Scene σ) (setting' : Setting τ) (scene' : Scene τ)
    (h : Delivers phases response (s.decryptKey request setting scene).trace)
    (h' : Delivers phases response (other.decryptKey request setting' scene').trace) :
    (s.decryptKey request setting scene).ending = (other.decryptKey request setting' scene').ending ∧
      (fed (s.decryptKey request setting scene).trace).flatten =
        (fed (other.decryptKey request setting' scene').trace).flatten :=
  (yields_decryptKey s request scene).eq_of_delivers (yields_decryptKey other request scene') hlimit h h'

/-- A response that reaches the limit is too large even if it ends there. -/
example : settlement "localhost" [2, 1] [7, 8] 2 = (.failed (.responseTooLarge "localhost" 2), [7, 8]) :=
  rfl

/-- A scripted world whose decryptor wants two phases, and whose streams bring one byte at a time. The state is what
was fed and what is still to come. -/
def dripping : World (Nat × Bytes) where
  engine
    | .bytesNeeded, s => (outstanding [2, 1] s.1, s)
    | .feed bytes, s => (.ok (), (s.1 + bytes.length, s.2))
    | call, s => ((Client.scripted.engine call ⟨[], [], 0⟩).1, s)
  service
    | .read want, _, s => ⟨s, some (1, .ok ⟨s.2.take (min want 1), by rw [List.length_take]; omega⟩, (s.1, s.2.drop 1))⟩
    | call, now, s =>
      ⟨s, (Client.scripted.service call now ⟨[], [], 0⟩).outcome.map fun r => (r.1, r.2.1, s)⟩

def drippingRun : Run (Nat × Bytes) KmsError Unit :=
  standard.decryptKey ⟨"local", "localhost", [5]⟩ ⟨dripping, 100, 3⟩ ⟨0, (0, [7, 8, 9, 10])⟩

theorem drippingRun_trace : drippingRun.trace = [
    .service (.connect "localhost" 443) (some (.ok ())),
    .service (.write [5]) (some (.ok 1)),
    .service .flush (some (.ok ())),
    .engine .bytesNeeded 2,
    .service (.read 2) (some (.ok ⟨[7], by decide⟩)),
    .engine (.feed [7]) (.ok ()),
    .engine .bytesNeeded 1,
    .service (.read 1) (some (.ok ⟨[8], by decide⟩)),
    .engine (.feed [8]) (.ok ()),
    .engine .bytesNeeded 1,
    .service (.read 1) (some (.ok ⟨[9], by decide⟩)),
    .engine (.feed [9]) (.ok ()),
    .engine .bytesNeeded 0,
    .service .shutdown (some (.ok ()))] := by
  cbv

theorem delivers_dripping : Delivers [2, 1] [7, 8, 9, 10] drippingRun.trace := by
  rw [drippingRun_trace]
  refine ⟨by simp, ?_⟩
  simp only [forall_split_cons_iff, forall_split_nil_iff]
  exact ⟨trivial, trivial, trivial,
    rfl, ⟨_, rfl, by decide, nofun⟩, rfl,
    rfl, ⟨_, rfl, by decide, nofun⟩, rfl,
    rfl, ⟨_, rfl, by decide, nofun⟩, rfl,
    rfl, nofun, trivial⟩

/-- Three bytes are wanted, and come one by one; the fourth is not read. -/
theorem decryptKey_segmentation_independent_dripping : Delivers [2, 1] [7, 8, 9, 10] drippingRun.trace ∧
    SettledAs "localhost" [2, 1] [7, 8, 9, 10] standard.responseLimit drippingRun.trace drippingRun.ending :=
  ⟨delivers_dripping, decryptKey_segmentation_independent standard ⟨"local", "localhost", [5]⟩
    ⟨dripping, 100, 3⟩ ⟨0, (0, [7, 8, 9, 10])⟩ [2, 1] [7, 8, 9, 10] delivers_dripping⟩

end StreamService

end FieldSeal
