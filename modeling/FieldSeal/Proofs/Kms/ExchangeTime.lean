import FieldSeal.Proofs.Kms.Discipline
import FieldSeal.Proofs.Kms.Limits

/-!
The time that an exchange takes. One limit is on all writes of the message together, one on the flush and one on each
read. The room for bytes bounds the number of reads, so that the limits add up to a bound on the whole time.
-/

namespace FieldSeal

namespace StreamService

open FieldSeal.Action FieldSeal.Trace

variable {σ α : Type} {setting : Setting σ} {world : World σ} {scene mid last : Scene σ} {s : StreamService}
  {request : KeyRequest} {host : String} {message : Bytes} {limit deadline time : Nat}
  {moments later : List (Moment σ)} {ending : Ending KmsError α}

/-- How long it takes to write a message if the writes are left alone, until all of it is taken or a write fails or
takes nothing; `none` if a write never ends. -/
def writingTime (world : World σ) : Bytes → Scene σ → Option Nat
  | [], _ => some 0
  | b :: rest, scene =>
    match (world.service (.write (b :: rest)) scene.now scene.state).outcome with
    | none => none
    | some (delay, .error _, _) => some delay
    | some (delay, .ok ⟨0, _⟩, _) => some delay
    | some (delay, .ok ⟨n + 1, _⟩, state) =>
      (writingTime world (rest.drop n) ⟨scene.now + delay, state⟩).map (delay + ·)
termination_by message => message.length
decreasing_by grind

/-- The first write alone does not take longer. -/
theorem delay_le_writingTime {b : UInt8} {rest : Bytes} (h : writingTime world (b :: rest) scene = some time) :
    ∃ delay answer state,
      (world.service (.write (b :: rest)) scene.now scene.state).outcome = some (delay, answer, state) ∧
        delay ≤ time := by
  rw [writingTime] at h
  split at h
  · cases h
  · next delay cause state houtcome =>
    cases h
    exact ⟨_, _, _, houtcome, Nat.le_refl _⟩
  · next delay hcount state houtcome =>
    cases h
    exact ⟨_, _, _, houtcome, Nat.le_refl _⟩
  · next delay count hcount state houtcome =>
    obtain ⟨rest, -, rfl⟩ := Option.map_eq_some_iff.1 h
    exact ⟨_, _, _, houtcome, Nat.le_add_right _ _⟩

/-- The writes of a message under a deadline. -/
structure Written (world : World σ) (deadline : Nat) (message : Bytes) (scene : Scene σ) (moments : List (Moment σ))
    (last : Scene σ) (ending : Ending KmsError Unit) : Prop where
  only : ∀ m ∈ moments, m.event.isWrite = true
  in_time : last.now ≤ max deadline scene.now
  cut : ∀ m ∈ moments, m.event.isCut = true → m.ended.now = deadline ∧ ending = .expired
  completed : ending ≠ .expired → ∃ time, writingTime world message scene = some time ∧ last.now = scene.now + time
  late : ending = .expired → (∃ m ∈ moments, m.event.isCut = true) ∧
    ∀ time, writingTime world message scene = some time → deadline < scene.now + time

/-- A write after which nothing more is offered. -/
theorem Written.over_at_once {b : UInt8} {rest : Bytes} {answer : (ServiceCall.write (b :: rest)).Answer}
    {e : KmsError} (h : Happens world ⟨scene, .service (.write (b :: rest)) (some answer), last⟩)
    (hlast : last.now ≤ deadline) (hstop : ∀ count, answer = .ok count → count.val = 0) :
    Written world deadline (b :: rest) scene [⟨scene, .service (.write (b :: rest)) (some answer), last⟩] last
      (.failed e) where
  only := List.forall_mem_singleton.2 rfl
  in_time := Nat.le_trans hlast (Nat.le_max_left _ _)
  cut := List.forall_mem_singleton.2 nofun
  late := nofun
  completed _ := by
    obtain ⟨delay, houtcome, hnow⟩ := h.of_answer
    refine ⟨delay, ?_, hnow⟩
    rw [writingTime, houtcome]
    cases answer with
    | error cause => rfl
    | ok count =>
      obtain ⟨_ | count, hcount⟩ := count
      · rfl
      · cases hstop _ rfl

theorem Written.cut_off {b : UInt8} {rest : Bytes}
    (h : Happens world ⟨scene, .service (.write (b :: rest)) none, last⟩) (hlast : last.now = deadline) :
    Written world deadline (b :: rest) scene [⟨scene, .service (.write (b :: rest)) none, last⟩] last .expired where
  only := List.forall_mem_singleton.2 rfl
  in_time := hlast ▸ Nat.le_max_left _ _
  cut := List.forall_mem_singleton.2 fun _ => ⟨hlast, rfl⟩
  completed hending := absurd rfl hending
  late _ := by
    refine ⟨⟨_, List.mem_singleton_self _, rfl⟩, fun time htime => ?_⟩
    obtain ⟨delay, answer, state, houtcome, hle⟩ := delay_le_writingTime htime
    have hlt := h.of_cut houtcome
    omega

/-- A write that takes some of the message, and the writes of the rest. -/
theorem Written.cons {b : UInt8} {rest : Bytes} {n : Nat} {hn : n + 1 < (b :: rest).length + 1}
    {ending : Ending KmsError Unit}
    (h : Happens world ⟨scene, .service (.write (b :: rest)) (some (.ok ⟨n + 1, hn⟩)), mid⟩)
    (hmid : mid.now ≤ deadline) (hrest : Written world deadline (rest.drop n) mid moments last ending) :
    Written world deadline (b :: rest) scene
      (⟨scene, .service (.write (b :: rest)) (some (.ok ⟨n + 1, hn⟩)), mid⟩ :: moments) last ending := by
  obtain ⟨delay, houtcome, hnow⟩ := h.of_answer
  have htime : writingTime world (b :: rest) scene = (writingTime world (rest.drop n) mid).map (delay + ·) := by
    rw [writingTime, houtcome]
    simp only [← hnow]
  constructor
  case only => exact List.forall_mem_cons.2 ⟨rfl, hrest.only⟩
  case in_time =>
    have hle := hrest.in_time
    omega
  case cut => exact List.forall_mem_cons.2 ⟨nofun, hrest.cut⟩
  case completed =>
    intro hending
    obtain ⟨time, hrestTime, hlast⟩ := hrest.completed hending
    exact ⟨delay + time, by rw [htime, hrestTime]; rfl, by omega⟩
  case late =>
    intro hending
    obtain ⟨⟨m, hm, hcut⟩, hlate⟩ := hrest.late hending
    refine ⟨⟨m, List.mem_cons_of_mem _ hm, hcut⟩, fun time hwriting => ?_⟩
    rw [htime] at hwriting
    obtain ⟨restTime, hrestTime, rfl⟩ := Option.map_eq_some_iff.1 hwriting
    have hlt := hlate restTime hrestTime
    omega

theorem records_writeAll (host : String) (message : Bytes) (setting : Setting σ) (scene : Scene σ) :
    Records setting (writeAll host message) scene (Written setting.world setting.deadline message scene) := by
  induction hlength : message.length using Nat.strongRecOn generalizing message scene with
  | ind n ih =>
    rw [writeAll.eq_def]
    cases message with
    | nil =>
      refine records_pure ⟨List.forall_mem_nil _, Nat.le_max_right _ _, List.forall_mem_nil _, fun _ => ?_, nofun⟩
      exact ⟨0, by rw [writingTime], rfl⟩
    | cons b rest =>
      refine records_await (fun last h hlast => .cut_off h hlast) ?_
      intro answer last h hlast
      cases answer with
      | error cause => exact records_fail (.over_at_once h hlast nofun)
      | ok count =>
        obtain ⟨_ | count, hcount⟩ := count
        · refine records_fail (.over_at_once h hlast fun other hother => ?_)
          cases hother
          rfl
        · have hshorter : (rest.drop count).length < n := by
            rw [List.length_cons] at hlength
            rw [List.length_drop]
            omega
          exact (ih _ hshorter (rest.drop count) last rfl).mono fun moments final ending hrest =>
            .cons h hlast hrest

/-- The writes of a message with one limit on all of them. -/
structure WritesLimited (world : World σ) (limit deadline : Nat) (message : Bytes) (scene : Scene σ)
    (moments : List (Moment σ)) (last : Scene σ) (ending : Ending KmsError Unit) : Prop where
  by_then : By (scene.now + limit) deadline last ending
  only : ∀ m ∈ moments, m.event.isWrite = true
  cut_iff : ending ≠ .expired →
    ((∃ m ∈ moments, m.event.isCut = true) ↔ Exceeds limit (writingTime world message scene))
  cut_at : ending ≠ .expired → ∀ m ∈ moments, m.event.isCut = true → m.ended.now = scene.now + limit

/-- Where all writes are over before the deadline, and that is not after the limit. -/
theorem Written.limited_of_over {ending outcome : Ending KmsError Unit}
    (h : Written world deadline message scene moments last ending) (hle : deadline ≤ scene.now + limit)
    (hending : ending ≠ .expired) (houtcome : outcome ≠ .expired) :
    WritesLimited world limit time message scene moments last outcome where
  by_then := ⟨by have hlast := h.in_time; omega, fun hexpired => absurd hexpired houtcome⟩
  only := h.only
  cut_iff _ := by
    obtain ⟨time, htime, hlast⟩ := h.completed hending
    constructor
    · rintro ⟨m, hm, hcut⟩
      exact absurd (h.cut m hm hcut).2 hending
    · intro hexceeds
      have hlt := hexceeds time htime
      have hmax := h.in_time
      omega
  cut_at _ m hm hcut := absurd (h.cut m hm hcut).2 hending

/-- Where the deadline is the limit and is reached. -/
theorem Written.limited_of_late {outcome : Ending KmsError Unit}
    (h : Written world (scene.now + limit) message scene moments last .expired) (houtcome : outcome ≠ .expired) :
    WritesLimited world limit deadline message scene moments last outcome where
  by_then := ⟨by have hlast := h.in_time; omega, fun hexpired => absurd hexpired houtcome⟩
  only := h.only
  cut_iff _ := by
    obtain ⟨hcut, hlate⟩ := h.late rfl
    refine iff_of_true hcut fun time htime => ?_
    have hlt := hlate time htime
    omega
  cut_at _ m hm hcut := (h.cut m hm hcut).1

theorem records_writes (host : String) (message : Bytes) (limit : Nat) (setting : Setting σ) (scene : Scene σ) :
    Records setting (inTime host "write" limit (writeAll host message)) scene
      (WritesLimited setting.world limit setting.deadline message scene) := by
  refine records_inTime ?_ fun hlt => ?_
  · refine (records_writeAll host message _ scene).mono fun moments last ending h => ?_
    by_cases hending : ending = .expired
    · subst hending
      exact h.limited_of_late nofun
    · exact h.limited_of_over (Nat.le_refl _) hending (ending.late_ne_expired _)
  · refine (records_writeAll host message setting scene).mono fun moments last ending h => ?_
    by_cases hending : ending = .expired
    · refine ⟨⟨?_, fun _ => hlt⟩, h.only, fun hwaits => absurd hending hwaits, fun hwaits => absurd hending hwaits⟩
      have hlast := h.in_time
      omega
    · exact h.limited_of_over (Nat.le_of_lt hlt) hending hending

/-- Calls other than writes, each under a limit of its own. -/
structure Separately (world : World σ) (limit time deadline : Nat) (moments : List (Moment σ)) (last : Scene σ)
    (ending : Ending KmsError α) : Prop where
  by_then : By time deadline last ending
  not_write : ∀ m ∈ moments, m.event.isWrite = false
  limited : ending ≠ .expired → ∀ m ∈ moments, m.Limited world limit

theorem Separately.append {β : Type} {a : α} {ending : Ending KmsError β}
    (h : Separately world limit time deadline moments mid (.done a : Ending KmsError α)) {time' : Nat}
    (hlater : Separately world limit time' deadline later last ending) :
    Separately world limit time' deadline (moments ++ later) last ending where
  by_then := hlater.by_then
  not_write := List.forall_mem_append.2 ⟨h.not_write, hlater.not_write⟩
  limited hending := List.forall_mem_append.2 ⟨h.limited (Ending.done_ne_expired a), hlater.limited hending⟩

/-- A stop before later calls leaves their time unused. -/
theorem Separately.stop {β : Type} {stop : Stop KmsError} {time' : Nat} (hle : time ≤ time')
    (h : Separately world limit time deadline moments last (stop.ending : Ending KmsError α)) :
    Separately world limit time' deadline moments last (stop.ending : Ending KmsError β) where
  by_then := (h.by_then.of_expired_iff stop.ending_eq_expired_iff).mono hle
  not_write := h.not_write
  limited hwaits := h.limited fun hexpired => hwaits (stop.ending_eq_expired_iff.2 hexpired)

theorem OneCall.separately {call : ServiceCall}
    (h : OneCall world call limit deadline scene moments last ending)
    (hcall : ∀ answer, (Event.service call answer).isWrite = false) :
    Separately world limit (scene.now + limit) deadline moments last ending where
  by_then := h.by_then
  limited := h.limited
  not_write := by
    obtain ⟨answer, rfl⟩ := h.single
    exact List.forall_mem_singleton.2 (hcall answer)

theorem records_flush (host : String) (limit : Nat) (setting : Setting σ) (scene : Scene σ) :
    Records setting (inTime host "write" limit (flush host)) scene
      (Separately setting.world limit (scene.now + limit) setting.deadline) := by
  refine (records_inTime_await fun answer => ?_).mono fun moments last ending h => h.separately fun _ => rfl
  cases answer with
  | error cause => exact .inr ⟨_, rfl⟩
  | ok value => exact .inl ⟨_, rfl⟩

theorem records_read (host : String) (want limit : Nat) (setting : Setting σ) (scene : Scene σ) :
    Records setting (inTime host "read" limit (read host want)) scene
      (Separately setting.world limit (scene.now + limit) setting.deadline) := by
  unfold read
  rw [bind_assoc]
  refine (records_inTime_await fun answer => ?_).mono fun moments last ending h => h.separately fun _ => rfl
  cases answer with
  | error cause => exact .inr ⟨_, rfl⟩
  | ok bytes => exact .inl ⟨_, rfl⟩

/-- A call on the engine takes no time. -/
theorem Separately.ask {call : EngineCall} {answer : call.Answer}
    (h : Separately world limit time deadline moments last ending) :
    Separately world limit time deadline (⟨scene, .engine call answer, mid⟩ :: moments) last ending where
  by_then := h.by_then
  not_write := List.forall_mem_cons.2 ⟨rfl, h.not_write⟩
  limited hending := List.forall_mem_cons.2 ⟨Moment.limited_engine, h.limited hending⟩

theorem Separately.nil (hle : scene.now ≤ time) (hending : ending ≠ .expired) :
    Separately world limit time deadline [] scene ending where
  by_then := ⟨hle, fun hexpired => absurd hexpired hending⟩
  not_write := List.forall_mem_nil _
  limited _ := List.forall_mem_nil _

/-- Each read but the last brings a byte, so that the room for bytes bounds the time for reads. -/
theorem records_receive (s : StreamService) (host : String) (room : Nat) (setting : Setting σ) (scene : Scene σ) :
    Records setting (s.receive host room) scene
      (Separately setting.world s.ioLimit (scene.now + room * s.ioLimit) setting.deadline) := by
  induction room using Nat.strongRecOn generalizing scene with
  | ind room ih =>
    rw [receive]
    refine records_ask fun needed asked _ hasked => ?_
    by_cases hneeded : needed = 0
    · rw [if_pos hneeded]
      exact records_pure (.ask (.nil (by omega) (Ending.done_ne_expired _)))
    rw [if_neg hneeded]
    cases room with
    | zero => exact records_fail (.ask (.nil (by omega) (Ending.failed_ne_expired _)))
    | succ room =>
      have hroom : (room + 1) * s.ioLimit = room * s.ioLimit + s.ioLimit := Nat.succ_mul room s.ioLimit
      refine (records_read host _ s.ioLimit setting asked).bind ?_ ?_
      · intro moments read bytes hread
        have hnow := hread.by_then.ended
        cases bytes with
        | nil => exact records_fail (.ask (hread.append (.nil (by omega) (Ending.failed_ne_expired _))))
        | cons b rest =>
          dsimp only
          rw [bind_assoc]
          refine records_ask fun answer fed _ hfed => ?_
          cases answer with
          | error e =>
            exact records_fail (.ask (hread.append (.ask (.nil (by omega) (Ending.failed_ne_expired _)))))
          | ok value =>
            -- the byte that was read leaves less room, and pays for the time of its read
            refine (ih (room - rest.length) (by omega) fed).mono fun later last ending hrest => ?_
            have hle : (room - rest.length) * s.ioLimit ≤ room * s.ioLimit :=
              Nat.mul_le_mul_right _ (Nat.sub_le _ _)
            have hlater : Separately setting.world s.ioLimit (scene.now + (room + 1) * s.ioLimit)
                setting.deadline later last ending :=
              ⟨hrest.by_then.mono (by omega), hrest.not_write, hrest.limited⟩
            exact (hread.append hlater.ask).ask
      · intro moments last stop hread
        exact (hread.stop (by omega)).ask

/-- What happens on an open connection before it is shut down, with its limits. -/
structure ExchangeLimited (world : World σ) (s : StreamService) (deadline : Nat) (message : Bytes) (scene : Scene σ)
    (moments : List (Moment σ)) (last : Scene σ) (ending : Ending KmsError Unit) : Prop where
  by_then : By (scene.now + (2 * s.ioLimit + s.responseLimit * s.ioLimit)) deadline last ending
  writes_cut_iff : ending ≠ .expired →
    ((∃ m ∈ moments, m.event.isWrite = true ∧ m.event.isCut = true) ↔
      Exceeds s.ioLimit (writingTime world message scene))
  writes_cut_at : ending ≠ .expired → ∀ m ∈ moments, m.event.isWrite = true → m.event.isCut = true →
    m.ended.now = scene.now + s.ioLimit
  limited : ending ≠ .expired → ∀ m ∈ moments, m.event.isWrite = false → m.Limited world s.ioLimit

theorem WritesLimited.exchange {ending outcome : Ending KmsError Unit}
    (h : WritesLimited world s.ioLimit deadline message scene moments mid outcome) (houtcome : outcome ≠ .expired)
    (hlater : Separately world s.ioLimit (scene.now + (2 * s.ioLimit + s.responseLimit * s.ioLimit)) deadline later
      last ending) : ExchangeLimited world s deadline message scene (moments ++ later) last ending where
  by_then := hlater.by_then
  writes_cut_iff _ := by
    rw [← h.cut_iff houtcome]
    constructor
    · rintro ⟨m, hm, hwrite, hcut⟩
      rcases List.mem_append.1 hm with hm | hm
      · exact ⟨m, hm, hcut⟩
      · exact absurd hwrite (Bool.eq_false_iff.1 (hlater.not_write m hm))
    · rintro ⟨m, hm, hcut⟩
      exact ⟨m, List.mem_append_left _ hm, h.only m hm, hcut⟩
  writes_cut_at _ m hm hwrite hcut := by
    rcases List.mem_append.1 hm with hm | hm
    · exact h.cut_at houtcome m hm hcut
    · exact absurd hwrite (Bool.eq_false_iff.1 (hlater.not_write m hm))
  limited hending m hm hwrite := by
    rcases List.mem_append.1 hm with hm | hm
    · exact absurd (h.only m hm) (Bool.eq_false_iff.1 hwrite)
    · exact hlater.limited hending m hm

theorem records_exchange (s : StreamService) (request : KeyRequest) (setting : Setting σ) (scene : Scene σ) :
    Records setting (s.exchange request) scene
      (ExchangeLimited setting.world s setting.deadline request.message scene) := by
  refine (records_writes request.host request.message s.ioLimit setting scene).bind ?_ ?_
  · intro moments written _ hwrites
    have hwritten := hwrites.by_then.ended
    refine Records.mono (P := Separately setting.world s.ioLimit
      (scene.now + (2 * s.ioLimit + s.responseLimit * s.ioLimit)) setting.deadline) ?_
      fun later last ending h => hwrites.exchange nofun h
    refine (records_flush request.host s.ioLimit setting written).bind ?_ ?_
    · intro flush flushed _ hflush
      have hflushed := hflush.by_then.ended
      refine (records_receive s request.host s.responseLimit setting flushed).mono fun later last ending h => ?_
      exact hflush.append ⟨h.by_then.mono (by omega), h.not_write, h.limited⟩
    · intro flush last stop hflush
      exact hflush.stop (by omega)
  · intro moments last stop hwrites
    have hover : By (scene.now + (2 * s.ioLimit + s.responseLimit * s.ioLimit)) setting.deadline last
        (stop.ending : Ending KmsError Unit) := hwrites.by_then.mono (by omega)
    by_cases hstop : (stop.ending : Ending KmsError Unit) = .expired
    · exact ⟨hover, fun hwaits => absurd hstop hwaits, fun hwaits => absurd hstop hwaits,
        fun hwaits => absurd hstop hwaits⟩
    · have hexchange := hwrites.exchange hstop (.nil hover.ended hstop)
      rwa [List.append_nil] at hexchange

end StreamService

end FieldSeal
