import FieldSeal.Proofs.Kms.Orderly

/-!
Setbacks: calls after which a connection is of no more use. The first one ends the exchange, and is what its failure is
due to.
-/

namespace FieldSeal

namespace StreamService

open FieldSeal.Trace

variable {s : StreamService} {request : KeyRequest} {t u earlier : List Event} {ending outcome : Ending KmsError Unit}

/-- A call after which the connection is of no more use, and the failure it amounts to. That the stream ends
and that the response is too long shows from the calls before. -/
inductive Setback (s : StreamService) (request : KeyRequest) (before : List Event) : Event → KmsError → Prop where
  | writeBroken (bytes : Bytes) (cause : Fault) :
      Setback s request before (.service (.write bytes) (some (.error cause))) (.io request.host cause)
  | writeStalled (bytes : Bytes) (count : Fin (bytes.length + 1)) (hcount : count.val = 0) :
      Setback s request before (.service (.write bytes) (some (.ok count)))
        (.io request.host (.plain "write zero"))
  | writeLate (bytes : Bytes) :
      Setback s request before (.service (.write bytes) none) (.timeout request.host "write")
  | flushBroken (cause : Fault) :
      Setback s request before (.service .flush (some (.error cause))) (.io request.host cause)
  | flushLate : Setback s request before (.service .flush none) (.timeout request.host "write")
  | readBroken (want : Nat) (cause : Fault) :
      Setback s request before (.service (.read want) (some (.error cause))) (.io request.host cause)
  | readLate (want : Nat) :
      Setback s request before (.service (.read want) none) (.timeout request.host "read")
  | ended {asked : List Event} {needed : Nat} (hasked : before = asked ++ [.engine .bytesNeeded needed])
      (want : Nat) (chunk : { bytes : Bytes // bytes.length ≤ want }) (hchunk : chunk.val = []) :
      Setback s request before (.service (.read want) (some (.ok chunk))) (.unexpectedEnd request.host needed)
  | full (needed : Nat) (hneeded : 0 < needed) (hfed : fedCount before = s.responseLimit) :
      Setback s request before (.engine .bytesNeeded needed) (.responseTooLarge request.host s.responseLimit)
  | rejected (bytes : Bytes) (e : EngineError) :
      Setback s request before (.engine (.feed bytes) (.error e)) (.engine e)

theorem Setback.unique {e : Event} {error other : KmsError} (h : Setback s request before e error)
    (hother : Setback s request before e other) : other = error := by
  cases h with
  | ended hasked want chunk hchunk =>
    cases hother with
    | ended hasked' want' chunk' hchunk' =>
      have hneeded := (List.append_inj' (hasked.symm.trans hasked') rfl).2
      cases hneeded
      rfl
  | _ =>
    cases hother
    rfl

/-- Calls on an open connection, after earlier ones: a setback is the last of them and is their outcome, unless
the caller gave up, and every failure is due to one. -/
structure Halts (s : StreamService) (request : KeyRequest) (earlier t : List Event)
    (outcome : Ending KmsError Unit) : Prop where
  setback : ∀ before e after error, t = before ++ e :: after → Setback s request (earlier ++ before) e error →
    after = [] ∧ (outcome = .failed error ∨ outcome = .expired)
  failed : ∀ error, outcome = .failed error →
    ∃ before e, t = before ++ [e] ∧ Setback s request (earlier ++ before) e error

namespace Halts

theorem nil : Halts s request earlier [] (.done ()) where
  setback _ _ _ _ ht := absurd ht (by simp)
  failed _ h := absurd h nofun

/-- One call that is no setback. -/
theorem step {e : Event} (h : ∀ error, ¬ Setback s request earlier e error) :
    Halts s request earlier [e] (.done ()) where
  setback before x after error ht hsetback := by
    obtain ⟨rfl, rfl, -⟩ := singleton_eq_split ht
    rw [List.append_nil] at hsetback
    exact absurd hsetback (h error)
  failed _ h := absurd h nofun

/-- One call that is a setback. -/
theorem stop {e : Event} {error : KmsError} (h : Setback s request earlier e error)
    (houtcome : outcome = .failed error ∨ outcome = .expired) : Halts s request earlier [e] outcome where
  setback before x after other ht hsetback := by
    obtain ⟨rfl, rfl, rfl⟩ := singleton_eq_split ht
    rw [List.append_nil] at hsetback
    rw [h.unique hsetback]
    exact ⟨rfl, houtcome⟩
  failed other hfailed := by
    refine ⟨[], e, rfl, ?_⟩
    rcases houtcome with houtcome | houtcome
    · rw [houtcome] at hfailed
      cases hfailed
      rwa [List.append_nil]
    · rw [houtcome] at hfailed
      cases hfailed

/-- Calls without a setback, and more calls after them. -/
theorem append (ht : Halts s request earlier t (.done ())) (hu : Halts s request (earlier ++ t) u outcome) :
    Halts s request earlier (t ++ u) outcome where
  setback before e after error hsplit hsetback := by
    rcases append_eq_split hsplit with ⟨rest, ht', -⟩ | ⟨rest, hu', rfl⟩
    · obtain ⟨-, hdone | hdone⟩ := ht.setback before e rest error ht' hsetback <;> cases hdone
    · rw [← List.append_assoc] at hsetback
      exact hu.setback rest e after error hu' hsetback
  failed error hfailed := by
    obtain ⟨before, e, rfl, hsetback⟩ := hu.failed error hfailed
    exact ⟨t ++ before, e, (List.append_assoc _ _ _).symm, by rwa [← List.append_assoc]⟩

/-- One call that is no setback, and more calls after it. -/
theorem cons {e : Event} (h : ∀ error, ¬ Setback s request earlier e error)
    (ht : Halts s request (earlier ++ [e]) t outcome) : Halts s request earlier (e :: t) outcome :=
  (step h).append ht

end Halts

theorem Writing.halts {left : Bytes} (h : Writing request.host left t ending) (s : StreamService)
    (earlier : List Event) : Halts s request earlier t ending := by
  induction h generalizing earlier with
  | written => exact .nil
  | taken hleft count hcount hrest ih =>
    refine .cons ?_ (ih _)
    intro error hsetback
    cases hsetback
    contradiction
  | stalled hleft count hcount => exact .stop (.writeStalled _ count hcount) (.inl rfl)
  | broken hleft cause => exact .stop (.writeBroken _ cause) (.inl rfl)
  | late hleft => exact .stop (.writeLate _) (.inl rfl)
  | abandoned hleft => exact .stop (.writeLate _) (.inr rfl)

theorem Flushing.halts (h : Flushing request.host t ending) (s : StreamService) (earlier : List Event) :
    Halts s request earlier t ending := by
  cases h with
  | flushed => exact .step fun error hsetback => nomatch hsetback
  | broken cause => exact .stop (.flushBroken cause) (.inl rfl)
  | late => exact .stop .flushLate (.inl rfl)
  | abandoned => exact .stop .flushLate (.inr rfl)

theorem Sending.halts (h : Sending request t ending) (s : StreamService) (earlier : List Event) :
    Halts s request earlier t ending := by
  cases h with
  | unwritten h hending => exact h.halts s earlier
  | written hwritten h => exact (hwritten.halts s earlier).append (h.halts s _)

/-- The question what is needed is no setback while there is room. -/
theorem Halts.asked {needed : Nat} (hfed : fedCount earlier < s.responseLimit)
    (ht : Halts s request (earlier ++ [.engine .bytesNeeded needed]) t outcome) :
    Halts s request earlier (.engine .bytesNeeded needed :: t) outcome := by
  refine .cons ?_ ht
  intro error hsetback
  cases hsetback
  omega

/-- A read that brings bytes is no setback. -/
theorem Halts.brought {want : Nat} {bytes : { bytes : Bytes // bytes.length ≤ want }} (hbytes : bytes.val ≠ [])
    (ht : Halts s request (earlier ++ [.service (.read want) (some (.ok bytes))]) t outcome) :
    Halts s request earlier (.service (.read want) (some (.ok bytes)) :: t) outcome := by
  refine .cons ?_ ht
  intro error hsetback
  cases hsetback
  contradiction

theorem LastTurn.halts {room : Nat} (h : LastTurn s request.host room t ending)
    (hroom : fedCount earlier + room = s.responseLimit) : Halts s request earlier t ending := by
  cases h with
  | satisfied =>
    refine .step ?_
    intro error hsetback
    cases hsetback
    contradiction
  | full hneeded hnone => exact .stop (.full _ hneeded (by omega)) (.inl rfl)
  | rejected hneeded hpos bytes hbytes e =>
    exact .asked (by omega) (.brought hbytes (.stop (.rejected _ e) (.inl rfl)))
  | ended hneeded hpos bytes hbytes =>
    exact .asked (by omega) (.stop (.ended rfl _ bytes hbytes) (.inl rfl))
  | broken hneeded hpos cause => exact .asked (by omega) (.stop (.readBroken _ cause) (.inl rfl))
  | late hneeded hpos => exact .asked (by omega) (.stop (.readLate _) (.inl rfl))
  | abandoned hneeded hpos => exact .asked (by omega) (.stop (.readLate _) (.inr rfl))

/-- The room of the loop and the bytes fed before it make up the response limit. -/
theorem Receipt.halts {host : String} {room : Nat} (h : Receipt s host room t ending) (hhost : host = request.host)
    (hroom : fedCount earlier + room = s.responseLimit) : Halts s request earlier t ending := by
  induction h generalizing earlier with
  | last h =>
    subst hhost
    exact h.halts hroom
  | @next room needed bytes t ending hneeded hpos hbytes hrest ih =>
    have hlength := length_le_room bytes
    have hfed : fedCount (earlier ++ turnCalls needed room bytes) = fedCount earlier + bytes.val.length := by
      rw [fedCount_append, fedCount_turnCalls]
    refine .append ?_ (ih (by omega))
    exact .asked (by omega) (.brought hbytes (.step fun error hsetback => nomatch hsetback))

theorem fedCount_of_isSending (ht : ∀ e ∈ t, e.isSending = true) : fedCount t = 0 := by
  rw [fedCount, fed_of_isSending ht]
  rfl

theorem Exchange.halts (h : Exchange s request t ending) : Halts s request [] t ending := by
  cases h with
  | unsent h hending => exact h.halts s []
  | received hsent h =>
    refine (hsent.halts s []).append (h.halts rfl ?_)
    rw [List.nil_append, fedCount_of_isSending hsent.callsOf.only, Nat.zero_add]

end StreamService

end FieldSeal
