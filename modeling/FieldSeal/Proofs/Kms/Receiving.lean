import FieldSeal.Kms.Stream
import FieldSeal.Proofs.Interaction.Trace
import FieldSeal.Proofs.Interaction.Yields

/-!
The receive loop of a round trip. Each turn asks what the decryptor needs, reads at most that, and feeds what
it read; `room` is what the response limit still allows. `Receipt` describes the traces of the loop with their
endings, and what the loop promises is read off it.
-/

namespace FieldSeal.StreamService

open FieldSeal.Action FieldSeal.Trace

variable {σ α : Type} {setting : Setting σ}

theorem yields_inTime {host operation : String} {limit : Nat} {p : Action σ KmsError α}
    {P Q : List Event → Ending KmsError α → Prop} (h : ∀ deadline, Yields { setting with deadline } p P)
    (hdone : ∀ t a, P t (.done a) → Q t (.done a))
    (hlimit : ∀ t, P t .expired → Q t (.failed (.timeout host operation)))
    (hstop : ∀ t (stop : Stop KmsError), P t stop.ending → Q t stop.ending) :
    Yields setting (inTime host operation limit p) Q := by
  let R : List Event → Ending KmsError (Option α) → Prop := fun t ending =>
    match ending with
    | .done (some a) => P t (.done a)
    | .done none => P t .expired
    | .failed e => P t (.failed e)
    | .expired => P t .expired
    | .unfinished => P t .unfinished
  have hwithin : Yields setting (within limit p) R := by
    refine yields_within h (fun t a ht => ht) (fun t ht => ht) ?_
    intro t stop ht
    cases stop <;> exact ht
  refine hwithin.bind ?_ ?_
  · intro t value ht
    cases value with
    | none => exact yields_fail (by simpa using hlimit t ht)
    | some a => exact yields_pure (by simpa using hdone t a ht)
  · intro t stop ht
    cases stop with
    | failed e => exact hstop t (.failed e) ht
    | expired => exact hstop t .expired ht
    | unfinished => exact hstop t .unfinished ht

/-- How many bytes a turn asks for. -/
def want (needed room : Nat) : Nat :=
  min needed (min chunkSize room)

theorem want_pos {needed room : Nat} (hneeded : 0 < needed) (hroom : 0 < room) : 0 < want needed room := by
  have hchunk : 0 < chunkSize := by decide
  unfold want
  omega

/-- One read under a limit. The call is cut off by the limit, or by the caller's own deadline. -/
inductive Reading (host : String) (want : Nat) : List Event → Ending KmsError Bytes → Prop where
  | read (bytes : { bytes : Bytes // bytes.length ≤ want }) :
      Reading host want [.service (.read want) (some (.ok bytes))] (.done bytes.val)
  | broken (cause : Fault) :
      Reading host want [.service (.read want) (some (.error cause))] (.failed (.io host cause))
  | late : Reading host want [.service (.read want) none] (.failed (.timeout host "read"))
  | abandoned : Reading host want [.service (.read want) none] .expired

theorem yields_reading (host : String) (want limit : Nat) :
    Yields setting (inTime host "read" limit (read host want)) (Reading host want) := by
  refine yields_inTime (P := fun t ending => Reading host want t ending ∧ ∀ h o, ending ≠ .failed (.timeout h o))
    (fun deadline => ?_) (fun t a ht => ht.1) ?_ (fun t stop ht => ht.1)
  · unfold read
    rw [bind_assoc]
    refine yields_await ⟨.abandoned, nofun⟩ ?_
    intro answer
    cases answer with
    | error cause => exact yields_fail ⟨.broken cause, nofun⟩
    | ok bytes => exact yields_pure ⟨.read bytes, nofun⟩
  · intro t ht
    cases ht.1
    exact .late

/-- A turn after which the loop is over. -/
inductive LastTurn (s : StreamService) (host : String) (room : Nat) :
    List Event → Ending KmsError Unit → Prop where
  | satisfied : LastTurn s host room [.engine .bytesNeeded 0] (.done ())
  | full {needed : Nat} (hneeded : 0 < needed) (hroom : room = 0) :
      LastTurn s host room [.engine .bytesNeeded needed] (.failed (.responseTooLarge host s.responseLimit))
  | rejected {needed : Nat} (hneeded : 0 < needed) (hroom : 0 < room)
      (bytes : { bytes : Bytes // bytes.length ≤ want needed room }) (hbytes : bytes.val ≠ []) (e : EngineError) :
      LastTurn s host room [.engine .bytesNeeded needed,
        .service (.read (want needed room)) (some (.ok bytes)), .engine (.feed bytes.val) (.error e)]
        (.failed (.engine e))
  | ended {needed : Nat} (hneeded : 0 < needed) (hroom : 0 < room)
      (bytes : { bytes : Bytes // bytes.length ≤ want needed room }) (hbytes : bytes.val = []) :
      LastTurn s host room [.engine .bytesNeeded needed,
        .service (.read (want needed room)) (some (.ok bytes))] (.failed (.unexpectedEnd host needed))
  | broken {needed : Nat} (hneeded : 0 < needed) (hroom : 0 < room) (cause : Fault) :
      LastTurn s host room [.engine .bytesNeeded needed,
        .service (.read (want needed room)) (some (.error cause))] (.failed (.io host cause))
  | late {needed : Nat} (hneeded : 0 < needed) (hroom : 0 < room) :
      LastTurn s host room [.engine .bytesNeeded needed, .service (.read (want needed room)) none]
        (.failed (.timeout host "read"))
  | abandoned {needed : Nat} (hneeded : 0 < needed) (hroom : 0 < room) :
      LastTurn s host room [.engine .bytesNeeded needed, .service (.read (want needed room)) none] .expired

/-- The calls of a turn after which the loop goes on. -/
def turnCalls (needed room : Nat) (bytes : { bytes : Bytes // bytes.length ≤ want needed room }) : List Event :=
  [.engine .bytesNeeded needed, .service (.read (want needed room)) (some (.ok bytes)),
    .engine (.feed bytes.val) (.ok ())]

/-- A turn of the loop: the last one, or one with calls of its own in front of a run with less room. -/
inductive Turn (setting : Setting σ) (s : StreamService) (host : String) (room : Nat) :
    List Event → Ending KmsError Unit → Prop where
  | last {t : List Event} {ending : Ending KmsError Unit} (h : LastTurn s host room t ending) :
      Turn setting s host room t ending
  | next {needed : Nat} (bytes : { bytes : Bytes // bytes.length ≤ want needed room }) {t : List Event}
      {ending : Ending KmsError Unit} (hneeded : 0 < needed) (hroom : 0 < room) (hbytes : bytes.val ≠ [])
      (hrest : HasRun setting (s.receive host (room - bytes.val.length)) t ending) :
      Turn setting s host room (turnCalls needed room bytes ++ t) ending

theorem receive_turn (s : StreamService) (host : String) (room : Nat) :
    Yields setting (s.receive host room) (Turn setting s host room) := by
  rw [receive]
  apply yields_ask
  intro needed
  by_cases hneeded : needed = 0
  · rw [if_pos hneeded, hneeded]
    exact yields_pure (.last .satisfied)
  have hpos : 0 < needed := Nat.pos_of_ne_zero hneeded
  rw [if_neg hneeded]
  cases room with
  | zero => exact yields_fail (.last (.full hpos rfl))
  | succ room =>
    have hroom : 0 < room + 1 := Nat.succ_pos room
    refine (yields_reading host (want needed (room + 1)) s.ioLimit).bind ?_ ?_
    · intro t bytes ht
      cases ht with
      | read bytes =>
        obtain ⟨_ | ⟨b, rest⟩, hlength⟩ := bytes
        · exact yields_fail (.last (.ended hpos hroom ⟨[], hlength⟩ rfl))
        · dsimp only
          rw [bind_assoc]
          apply yields_ask
          intro answer
          cases answer with
          | error e => exact yields_fail (.last (.rejected hpos hroom ⟨b :: rest, hlength⟩ nofun e))
          | ok _ =>
            refine yields_hasRun.mono fun u ending hu => ?_
            refine .next ⟨b :: rest, hlength⟩ hpos hroom nofun ?_
            rwa [List.length_cons, Nat.add_sub_add_right]
    · intro t stop ht
      cases stop with
      | failed e =>
        cases ht with
        | broken cause => exact .last (.broken hpos hroom cause)
        | late => exact .last (.late hpos hroom)
      | expired =>
        cases ht
        exact .last (.abandoned hpos hroom)
      | unfinished => cases ht

/-- The traces of the loop, turn by turn. -/
inductive Receipt (s : StreamService) (host : String) : Nat → List Event → Ending KmsError Unit → Prop where
  | last {room : Nat} {t : List Event} {ending : Ending KmsError Unit} (h : LastTurn s host room t ending) :
      Receipt s host room t ending
  | next {room needed : Nat} (bytes : { bytes : Bytes // bytes.length ≤ want needed room }) {t : List Event}
      {ending : Ending KmsError Unit} (hneeded : 0 < needed) (hroom : 0 < room) (hbytes : bytes.val ≠ [])
      (hrest : Receipt s host (room - bytes.val.length) t ending) :
      Receipt s host room (turnCalls needed room bytes ++ t) ending

theorem receipt_of_hasRun (s : StreamService) (host : String) (room : Nat) {t : List Event}
    {ending : Ending KmsError Unit} (hrun : HasRun setting (s.receive host room) t ending) :
    Receipt s host room t ending := by
  induction room using Nat.strongRecOn generalizing t with
  | ind room ih =>
    cases (receive_turn s host room).of_hasRun hrun with
    | last h => exact .last h
    | next bytes hneeded hroom hbytes hrest =>
      -- a turn that is not the last takes some of the room, so the rest of the loop has less
      have hlength : 0 < bytes.val.length := List.length_pos_iff.2 hbytes
      exact .next bytes hneeded hroom hbytes (ih _ (by omega) hrest)

@[simp] theorem fed_turnCalls (needed room : Nat) (bytes : { bytes : Bytes // bytes.length ≤ want needed room }) :
    fed (turnCalls needed room bytes) = [bytes.val] := rfl

@[simp] theorem fedCount_turnCalls (needed room : Nat)
    (bytes : { bytes : Bytes // bytes.length ≤ want needed room }) :
    fedCount (turnCalls needed room bytes) = bytes.val.length := by
  simp [fedCount]

theorem want_le_needed (needed room : Nat) : want needed room ≤ needed :=
  Nat.min_le_left _ _

theorem want_le_room (needed room : Nat) : want needed room ≤ room :=
  Nat.le_trans (Nat.min_le_right _ _) (Nat.min_le_right _ _)

theorem length_le_room {needed room : Nat} (bytes : { bytes : Bytes // bytes.length ≤ want needed room }) :
    bytes.val.length ≤ room :=
  Nat.le_trans bytes.property (want_le_room needed room)

theorem LastTurn.fedCount_le {s : StreamService} {host : String} {room : Nat} {t : List Event}
    {ending : Ending KmsError Unit} (h : LastTurn s host room t ending) : fedCount t ≤ room := by
  cases h with
  | rejected hneeded hroom bytes hbytes e =>
    show (bytes.val ++ []).length ≤ room
    rw [List.append_nil]
    exact length_le_room bytes
  | _ => exact Nat.zero_le _

namespace Receipt

variable {s : StreamService} {host : String} {room : Nat} {t before after : List Event}
  {ending : Ending KmsError Unit}

theorem fedCount_le (h : Receipt s host room t ending) : fedCount t ≤ room := by
  induction h with
  | last h => exact h.fedCount_le
  | next bytes hneeded hroom hbytes hrest ih =>
    have hlength := length_le_room bytes
    rw [fedCount_append, fedCount_turnCalls]
    omega

/-- The last turn has the room that the bytes fed before it leave. -/
theorem exists_last (h : Receipt s host room t ending) :
    ∃ earlier final, t = earlier ++ final ∧ fedCount earlier ≤ room ∧
      LastTurn s host (room - fedCount earlier) final ending := by
  induction h with
  | last h => exact ⟨[], _, rfl, Nat.zero_le _, h⟩
  | next bytes hneeded hroom hbytes hrest ih =>
    obtain ⟨earlier, final, rfl, hle, hlast⟩ := ih
    have hlength := length_le_room bytes
    refine ⟨turnCalls _ _ bytes ++ earlier, final, (List.append_assoc _ _ _).symm, ?_, ?_⟩
    · rw [fedCount_append, fedCount_turnCalls]
      omega
    · rwa [fedCount_append, fedCount_turnCalls, ← Nat.sub_sub]

end Receipt

end FieldSeal.StreamService
