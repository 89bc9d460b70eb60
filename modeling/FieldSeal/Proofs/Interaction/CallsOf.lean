import FieldSeal.Proofs.Interaction.Trace
import FieldSeal.Proofs.Interaction.Yields

/-!
Actions that make calls of one kind only and that no fuel keeps from ending.
-/

namespace FieldSeal

open FieldSeal.Action FieldSeal.Trace

variable {σ ε δ α β : Type} {setting : Setting σ} {kind : Event → Bool} {t u : List Event}

/-- All calls are of the kind, the run is over, and where it expired its last call was cut off. -/
structure CallsOf (kind : Event → Bool) (t : List Event) (ending : Ending ε α) : Prop where
  only : ∀ e ∈ t, kind e = true
  cut : ending = .expired → EndsCut t
  ends : ending ≠ .unfinished

namespace CallsOf

theorem mono {kind' : Event → Bool} {ending : Ending ε α} (h : CallsOf kind t ending)
    (hkind : ∀ e, kind e = true → kind' e = true) : CallsOf kind' t ending where
  only e he := hkind e (h.only e he)
  cut := h.cut
  ends := h.ends

theorem nil {ending : Ending ε α} (hcut : ending ≠ .expired) (hends : ending ≠ .unfinished) :
    CallsOf kind [] ending where
  only _ he := absurd he List.not_mem_nil
  cut hending := absurd hending hcut
  ends := hends

theorem singleton {e : Event} {ending : Ending ε α} (he : kind e = true)
    (hcut : ending = .expired → EndsCut [e]) (hends : ending ≠ .unfinished) : CallsOf kind [e] ending where
  only x hx := by
    rw [List.mem_singleton.1 hx]
    exact he
  cut := hcut
  ends := hends

theorem append {first : Ending ε α} {ending : Ending δ β} (ht : CallsOf kind t first)
    (hu : CallsOf kind u ending) : CallsOf kind (t ++ u) ending where
  only x hx := by
    rcases List.mem_append.1 hx with hx | hx
    · exact ht.only x hx
    · exact hu.only x hx
  cut hending := (hu.cut hending).append t
  ends := hu.ends

theorem stopped {stop : Stop ε} (h : CallsOf kind t (stop.ending : Ending ε α)) :
    CallsOf kind t (stop.ending : Ending ε β) := by
  cases stop with
  | failed e => exact ⟨h.only, nofun, nofun⟩
  | expired => exact ⟨h.only, fun _ => h.cut rfl, nofun⟩
  | unfinished => exact absurd rfl h.ends

end CallsOf

theorem callsOf_pure (a : α) : Yields setting (pure a : Action σ ε α) (CallsOf kind) :=
  yields_pure (.nil nofun nofun)

theorem callsOf_fail (e : ε) : Yields setting (fail e : Action σ ε α) (CallsOf kind) :=
  yields_fail (.nil nofun nofun)

theorem callsOf_ofExcept (result : Except ε α) : Yields setting (ofExcept result) (CallsOf kind) := by
  cases result with
  | error e => exact callsOf_fail e
  | ok a => exact callsOf_pure a

theorem callsOf_bind {p : Action σ ε α} {f : α → Action σ ε β} (hp : Yields setting p (CallsOf kind))
    (hf : ∀ a, Yields setting (f a) (CallsOf kind)) : Yields setting (p >>= f) (CallsOf kind) := by
  refine hp.bind ?_ fun t stop ht => ht.stopped
  intro t a ht
  exact (hf a).mono fun u ending hu => ht.append hu

theorem callsOf_await {call : ServiceCall} (hcall : ∀ answer, kind (.service call answer) = true) :
    Yields setting (await call : Action σ ε call.Answer) (CallsOf kind) := by
  rw [← bind_pure (await call)]
  refine yields_await ?_ fun answer => ?_
  · exact .singleton (hcall none) (fun _ => endsCut_singleton call) nofun
  · exact yields_pure (.singleton (hcall (some answer)) nofun nofun)

end FieldSeal
