import FieldSeal.Proofs.Interaction.Timeline
import FieldSeal.Proofs.Kms.Stages

/-!
Limits on calls. One limit may be on a single call, or on all writes of a message together; what is not over when the
limit is reached is cut off, unless the caller gives up before.
-/

namespace FieldSeal

namespace Event

/-- A call that was not answered. -/
def isCut : Event → Bool
  | .service _ none => true
  | _ => false

def isWrite : Event → Bool
  | .service (.write _) _ => true
  | _ => false

def isShutdown : Event → Bool
  | .service .shutdown _ => true
  | _ => false

end Event

/-- It takes longer than the limit, or never ends. -/
def Exceeds (limit : Nat) (duration : Option Nat) : Prop :=
  ∀ time, duration = some time → limit < time

namespace Moment

variable {σ : Type} {world : World σ} {m : Moment σ} {scene last : Scene σ}

/-- How long the call takes if it is left alone; `none` for a call that never ends. -/
def duration (world : World σ) (m : Moment σ) : Option Nat :=
  match m.event with
  | .service call _ => (world.service call m.began.now m.began.state).outcome.map Prod.fst
  | _ => some 0

/-- A call under a limit of its own is cut off if and only if it exceeds the limit, and then at the limit. -/
structure Limited (world : World σ) (limit : Nat) (m : Moment σ) : Prop where
  cut_iff : m.event.isCut = true ↔ Exceeds limit (m.duration world)
  cut_at : m.event.isCut = true → m.ended.now = m.began.now + limit

theorem limited_of_answer {call : ServiceCall} {answer : call.Answer} {limit : Nat}
    (h : Happens world ⟨scene, .service call (some answer), last⟩) (hlast : last.now ≤ scene.now + limit) :
    Limited world limit ⟨scene, .service call (some answer), last⟩ where
  cut_iff := by
    obtain ⟨delay, houtcome, hnow⟩ := h.of_answer
    refine ⟨nofun, fun hexceeds => ?_⟩
    have hlt : limit < delay := hexceeds delay (congrArg (Option.map Prod.fst) houtcome)
    omega
  cut_at := nofun

theorem limited_of_cut {call : ServiceCall} {limit : Nat} (h : Happens world ⟨scene, .service call none, last⟩)
    (hlast : last.now = scene.now + limit) : Limited world limit ⟨scene, .service call none, last⟩ where
  cut_iff := by
    refine ⟨fun _ time htime => ?_, fun _ => rfl⟩
    obtain ⟨⟨delay, answer, state⟩, houtcome, rfl⟩ := Option.map_eq_some_iff.1 htime
    have hlt := h.of_cut houtcome
    show limit < delay
    omega
  cut_at _ := hlast

/-- An engine answers at once. -/
theorem limited_engine {call : EngineCall} {answer : call.Answer} {limit : Nat} :
    Limited world limit ⟨scene, .engine call answer, last⟩ where
  cut_iff := ⟨nofun, fun hexceeds => absurd (hexceeds 0 rfl) (Nat.not_lt_zero limit)⟩
  cut_at := nofun

end Moment

/-- The ending where to reach the limit is a failure. -/
def Ending.late {ε α : Type} (e : ε) : Ending ε α → Ending ε α
  | .expired => .failed e
  | .done a => .done a
  | .failed error => .failed error
  | .unfinished => .unfinished

theorem Ending.done_ne_expired {ε α : Type} (value : α) : (done value : Ending ε α) ≠ .expired :=
  nofun

theorem Ending.failed_ne_expired {ε α : Type} (e : ε) : (failed e : Ending ε α) ≠ .expired :=
  nofun

theorem Ending.late_ne_expired {ε α : Type} (e : ε) (ending : Ending ε α) : ending.late e ≠ .expired := by
  cases ending <;> exact nofun

theorem Stop.ending_eq_expired_iff {ε α β : Type} (stop : Stop ε) :
    (stop.ending : Ending ε α) = .expired ↔ (stop.ending : Ending ε β) = .expired := by
  cases stop <;> exact ⟨fun h => by cases h <;> rfl, fun h => by cases h <;> rfl⟩

namespace StreamService

open FieldSeal.Action FieldSeal.Trace

variable {σ α : Type} {setting : Setting σ} {scene : Scene σ} {host operation : String} {limit : Nat}
  {p : Action σ KmsError α}

/-- Where the limit comes first an action runs with it as its deadline. -/
theorem inTime_of_le (h : scene.now + limit ≤ setting.deadline) : inTime host operation limit p setting scene =
    (p { setting with deadline := scene.now + limit } scene).withEnding
      ((p { setting with deadline := scene.now + limit } scene).ending.late (.timeout host operation)) := by
  unfold inTime
  rw [bind_apply]
  unfold within
  rw [if_pos h]
  generalize p { setting with deadline := scene.now + limit } scene = run
  obtain ⟨ending, t, last⟩ := run
  cases ending <;> simp [Run.withEnding, Run.andThen, Ending.late, fail]

/-- Where the caller gives up before the limit there is no other deadline. -/
theorem inTime_of_lt (h : setting.deadline < scene.now + limit) :
    inTime host operation limit p setting scene = p setting scene := by
  unfold inTime
  rw [bind_apply]
  unfold within
  rw [if_neg (Nat.not_le.2 h), map_eq_pure_bind, bind_apply]
  generalize p setting scene = run
  obtain ⟨ending, t, last⟩ := run
  cases ending <;> simp [Run.andThen]

theorem records_inTime {Q : List (Moment σ) → Scene σ → Ending KmsError α → Prop}
    (hlimit : Records { setting with deadline := scene.now + limit } p scene fun moments last ending =>
      Q moments last (ending.late (.timeout host operation)))
    (houter : setting.deadline < scene.now + limit → Records setting p scene Q) :
    Records setting (inTime host operation limit p) scene Q := by
  unfold Records
  by_cases h : scene.now + limit ≤ setting.deadline
  · rw [inTime_of_le h]
    exact hlimit
  · rw [inTime_of_lt (Nat.not_le.1 h)]
    exact houter (Nat.not_le.1 h)

/-- It ends by some time, and nobody with a deadline after that gives up. -/
structure By (time deadline : Nat) (last : Scene σ) (ending : Ending KmsError α) : Prop where
  ended : last.now ≤ time
  abandoned : ending = .expired → deadline < time

theorem By.mono {time time' deadline : Nat} {last : Scene σ} {ending : Ending KmsError α}
    (h : By time deadline last ending) (hle : time ≤ time') : By time' deadline last ending where
  ended := Nat.le_trans h.ended hle
  abandoned hending := Nat.lt_of_lt_of_le (h.abandoned hending) hle

/-- Only whether somebody gives up counts. -/
theorem By.of_expired_iff {β : Type} {time deadline : Nat} {last : Scene σ} {ending : Ending KmsError α}
    {outcome : Ending KmsError β} (h : By time deadline last ending) (hiff : outcome = .expired ↔ ending = .expired) :
    By time deadline last outcome where
  ended := h.ended
  abandoned houtcome := h.abandoned (hiff.1 houtcome)

/-- No call is made, and nothing is waited for. -/
theorem records_of_value {Q : List (Moment σ) → Scene σ → Ending KmsError α → Prop}
    (hp : (∃ a, p = pure a) ∨ ∃ e, p = fail e) (h : ∀ ending, ending ≠ .expired → Q [] scene ending) :
    Records setting p scene Q := by
  rcases hp with ⟨a, rfl⟩ | ⟨e, rfl⟩
  · exact records_pure (h _ nofun)
  · exact records_fail (h _ nofun)

/-- One call under a limit. -/
structure OneCall (world : World σ) (call : ServiceCall) (limit deadline : Nat) (scene : Scene σ)
    (moments : List (Moment σ)) (last : Scene σ) (ending : Ending KmsError α) : Prop where
  by_then : By (scene.now + limit) deadline last ending
  single : ∃ answer, moments = [⟨scene, .service call answer, last⟩]
  limited : ending ≠ .expired → ∀ m ∈ moments, m.Limited world limit

theorem OneCall.of_expired_iff {β : Type} {world : World σ} {call : ServiceCall} {deadline : Nat}
    {moments : List (Moment σ)} {last : Scene σ} {ending : Ending KmsError α} {outcome : Ending KmsError β}
    (h : OneCall world call limit deadline scene moments last ending)
    (hiff : outcome = .expired ↔ ending = .expired) :
    OneCall world call limit deadline scene moments last outcome where
  by_then := h.by_then.of_expired_iff hiff
  single := h.single
  limited houtcome := h.limited fun hending => houtcome (hiff.2 hending)

theorem oneCall_of_answer {world : World σ} {call : ServiceCall} {deadline : Nat} {answer : call.Answer}
    {last : Scene σ} {ending : Ending KmsError α} (h : Happens world ⟨scene, .service call (some answer), last⟩)
    (hlast : last.now ≤ scene.now + limit) (hending : ending ≠ .expired) :
    OneCall world call limit deadline scene [⟨scene, .service call (some answer), last⟩] last ending where
  by_then := ⟨hlast, fun hexpired => absurd hexpired hending⟩
  single := ⟨some answer, rfl⟩
  limited _ := List.forall_mem_singleton.2 (Moment.limited_of_answer h hlast)

theorem records_inTime_await {call : ServiceCall} {g : call.Answer → Action σ KmsError α}
    (hg : ∀ answer, (∃ a, g answer = pure a) ∨ ∃ e, g answer = fail e) :
    Records setting (inTime host operation limit (await call >>= g)) scene
      (OneCall setting.world call limit setting.deadline scene) := by
  refine records_inTime (records_await ?_ ?_) fun hlt => records_await ?_ ?_
  · intro last h hlast
    exact ⟨⟨Nat.le_of_eq hlast, nofun⟩, ⟨none, rfl⟩, fun _ =>
      List.forall_mem_singleton.2 (Moment.limited_of_cut h hlast)⟩
  · intro answer last h hlast
    exact records_of_value (hg answer) fun ending _ =>
      oneCall_of_answer h hlast (ending.late_ne_expired _)
  · intro last h hlast
    have hle : last.now ≤ scene.now + limit := Nat.le_of_lt (hlast ▸ hlt)
    exact ⟨⟨hle, fun _ => hlt⟩, ⟨none, rfl⟩, fun hwaits => absurd rfl hwaits⟩
  · intro answer last h hlast
    exact records_of_value (hg answer) fun ending hending =>
      oneCall_of_answer h (Nat.le_trans hlast (Nat.le_of_lt hlt)) hending

theorem records_inTime_call (host operation : String) (call : ServiceCall) (limit : Nat) (setting : Setting σ)
    (scene : Scene σ) : Records setting (inTime host operation limit (await call)) scene
      (OneCall setting.world call limit setting.deadline scene) := by
  rw [← bind_pure (await call)]
  exact records_inTime_await fun answer => .inl ⟨answer, rfl⟩

end StreamService

end FieldSeal
