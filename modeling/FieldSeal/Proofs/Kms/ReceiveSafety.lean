import FieldSeal.Proofs.Kms.Receiving

/-!
What the receive loop promises for any decryptor and any stream: it never takes more than the response limit,
asks for no more than is needed, feeds exactly what it reads, and ends in the way its ending says.
-/

namespace FieldSeal.StreamService

open FieldSeal.Action FieldSeal.Trace

variable {σ : Type} {setting : Setting σ} {s : StreamService} {host : String} {room : Nat}
  {t before after : List Event} {ending : Ending KmsError Unit}

/-- The calls of one turn, whether or not the loop goes on after it. -/
inductive TurnCalls (room : Nat) : List Event → Prop where
  | asked (needed : Nat) : TurnCalls room [.engine .bytesNeeded needed]
  | read {needed : Nat} (hneeded : 0 < needed) (hroom : 0 < room)
      (answer : Option (ServiceCall.read (want needed room)).Answer)
      (hnone : Event.got? (.service (.read (want needed room)) answer) = none) :
      TurnCalls room [.engine .bytesNeeded needed, .service (.read (want needed room)) answer]
  | fed {needed : Nat} (hneeded : 0 < needed) (hroom : 0 < room)
      (bytes : { bytes : Bytes // bytes.length ≤ want needed room }) (hbytes : bytes.val ≠ [])
      (answer : Except EngineError Unit) :
      TurnCalls room [.engine .bytesNeeded needed,
        .service (.read (want needed room)) (some (.ok bytes)), .engine (.feed bytes.val) answer]

theorem LastTurn.calls (h : LastTurn s host room t ending) : TurnCalls room t := by
  cases h with
  | satisfied => exact .asked 0
  | full hneeded hroom => exact .asked _
  | rejected hneeded hroom bytes hbytes e => exact .fed hneeded hroom bytes hbytes (.error e)
  | ended hneeded hroom bytes hbytes => exact .read hneeded hroom (some (.ok bytes)) (if_pos hbytes)
  | broken hneeded hroom cause => exact .read hneeded hroom (some (.error cause)) rfl
  | late hneeded hroom => exact .read hneeded hroom none rfl
  | abandoned hneeded hroom => exact .read hneeded hroom none rfl

namespace TurnCalls

theorem fed_eq_got (h : TurnCalls room t) : Trace.fed t = Trace.got t := by
  cases h with
  | asked needed => rfl
  | read hneeded hroom answer hnone =>
    show [] = Trace.got ([Event.engine .bytesNeeded _] ++ [Event.service _ answer])
    rw [got_append]
    show [] = Trace.got [Event.service _ answer]
    rw [Trace.got, List.filterMap_cons_none hnone, List.filterMap_nil]
  | fed hneeded hroom bytes hbytes answer =>
    have hgot : Event.got? (.service (.read (want _ room)) (some (.ok bytes))) = some bytes.val :=
      if_neg hbytes
    show [bytes.val] = List.filterMap Event.got? [_, _, _]
    rw [List.filterMap_cons_none rfl, List.filterMap_cons_some hgot]
    rfl

/-- Each read follows the question it is about, and bytes that it brings are fed at once. -/
theorem of_read {w : Nat} {answer : Option (ServiceCall.read w).Answer}
    (h : TurnCalls room (before ++ .service (.read w) answer :: after)) :
    ∃ needed, before = [.engine .bytesNeeded needed] ∧ 0 < needed ∧ 0 < room ∧ w = want needed room ∧
      ∀ bytes, answer = some (.ok bytes) → bytes.val ≠ [] →
        ∃ reply, after = [.engine (.feed bytes.val) reply] := by
  generalize ht : before ++ .service (.read w) answer :: after = t at h
  cases h with
  | asked needed =>
    obtain ⟨-, he, -⟩ := singleton_eq_split ht.symm
    cases he
  | @read needed hneeded hroom got hnone =>
    rcases pair_eq_split ht.symm with ⟨-, he, -⟩ | ⟨rfl, he, -⟩ <;> cases he
    refine ⟨needed, rfl, hneeded, hroom, rfl, ?_⟩
    intro bytes hgot hbytes
    rw [hgot, Event.got?, if_neg hbytes] at hnone
    cases hnone
  | @fed needed hneeded hroom chunk hbytes reply =>
    rcases triple_eq_split ht.symm with ⟨-, he, -⟩ | ⟨rfl, he, rfl⟩ | ⟨-, he, -⟩ <;> cases he
    refine ⟨needed, rfl, hneeded, hroom, rfl, ?_⟩
    intro bytes hgot _
    cases hgot
    exact ⟨reply, rfl⟩

/-- Each feed hands on, whole, the bytes of the read before it. -/
theorem of_feed {bytes : Bytes} {answer : Except EngineError Unit}
    (h : TurnCalls room (before ++ .engine (.feed bytes) answer :: after)) :
    ∃ needed w chunk, before = [.engine .bytesNeeded needed, .service (.read w) (some (.ok chunk))] ∧
      chunk.val = bytes ∧ bytes ≠ [] ∧ bytes.length ≤ needed := by
  generalize ht : before ++ .engine (.feed bytes) answer :: after = t at h
  cases h with
  | asked needed =>
    obtain ⟨-, he, -⟩ := singleton_eq_split ht.symm
    cases he
  | read hneeded hroom got hnone =>
    rcases pair_eq_split ht.symm with ⟨-, he, -⟩ | ⟨-, he, -⟩ <;> cases he
  | @fed needed hneeded hroom chunk hbytes reply =>
    rcases triple_eq_split ht.symm with ⟨-, he, -⟩ | ⟨-, he, -⟩ | ⟨rfl, he, -⟩ <;> cases he
    have hlength : chunk.val.length ≤ needed := Nat.le_trans chunk.property (want_le_needed needed room)
    exact ⟨needed, _, chunk, rfl, rfl, hbytes, hlength⟩

/-- The question what is needed opens a turn. -/
theorem of_bytesNeeded {needed : Nat} (h : TurnCalls room (before ++ .engine .bytesNeeded needed :: after)) :
    before = [] := by
  generalize ht : before ++ .engine .bytesNeeded needed :: after = t at h
  cases h with
  | asked needed => exact (singleton_eq_split ht.symm).1
  | read hneeded hroom got hnone =>
    rcases pair_eq_split ht.symm with ⟨hbefore, -, -⟩ | ⟨-, he, -⟩
    · exact hbefore
    · cases he
  | fed hneeded hroom chunk hbytes reply =>
    rcases triple_eq_split ht.symm with ⟨hbefore, -, -⟩ | ⟨-, he, -⟩ | ⟨-, he, -⟩
    · exact hbefore
    · cases he
    · cases he

end TurnCalls

theorem turnCalls_calls {needed : Nat} (bytes : { bytes : Bytes // bytes.length ≤ want needed room })
    (hneeded : 0 < needed) (hroom : 0 < room) (hbytes : bytes.val ≠ []) :
    TurnCalls room (turnCalls needed room bytes) :=
  .fed hneeded hroom bytes hbytes (.ok ())

theorem LastTurn.reads_le (h : LastTurn s host room t ending) : reads t ≤ room := by
  cases h with
  | satisfied => exact Nat.zero_le room
  | full hneeded hroom => exact Nat.zero_le room
  | rejected hneeded hroom bytes hbytes e => exact hroom
  | ended hneeded hroom bytes hbytes => exact hroom
  | broken hneeded hroom cause => exact hroom
  | late hneeded hroom => exact hroom
  | abandoned hneeded hroom => exact hroom

/-- A feed that fails is the last call of a last turn. -/
theorem LastTurn.of_feed_error {bytes : Bytes} {e : EngineError}
    (h : LastTurn s host room (before ++ .engine (.feed bytes) (.error e) :: after) ending) :
    after = [] ∧ ending = .failed (.engine e) := by
  obtain ⟨needed, w, chunk, rfl, -, -, -⟩ := h.calls.of_feed
  cases h with
  | rejected hneeded hroom bytes hbytes e => exact ⟨rfl, rfl⟩

namespace Receipt

/-- Every call belongs to one turn, whose room is what the bytes fed before it leave. -/
theorem turn_of_split {e : Event} (h : Receipt s host room t ending) (ht : t = before ++ e :: after) :
    ∃ earlier front back later, before = earlier ++ front ∧ after = back ++ later ∧ fedCount earlier ≤ room ∧
      TurnCalls (room - fedCount earlier) (front ++ e :: back) := by
  induction h generalizing before with
  | last h =>
    subst ht
    exact ⟨[], before, after, [], rfl, (List.append_nil _).symm, Nat.zero_le _, h.calls⟩
  | @next room needed bytes u ending hneeded hroom hbytes hrest ih =>
    rcases append_eq_split ht with ⟨rest, hfirst, rfl⟩ | ⟨rest, hu, rfl⟩
    · have hcalls := turnCalls_calls bytes hneeded hroom hbytes
      rw [hfirst] at hcalls
      exact ⟨[], before, rest, u, rfl, rfl, Nat.zero_le _, hcalls⟩
    · obtain ⟨earlier, front, back, later, rfl, rfl, hle, hcalls⟩ := ih hu
      have hlength := length_le_room bytes
      refine ⟨turnCalls needed room bytes ++ earlier, front, back, later, ?_, rfl, ?_, ?_⟩
      · rw [List.append_assoc]
      · rw [fedCount_append, fedCount_turnCalls]
        omega
      · rwa [fedCount_append, fedCount_turnCalls, ← Nat.sub_sub]

theorem fed_eq_got (h : Receipt s host room t ending) : fed t = got t := by
  induction h with
  | last h => exact h.calls.fed_eq_got
  | next bytes hneeded hroom hbytes hrest ih =>
    rw [fed_append, got_append, ih, (turnCalls_calls bytes hneeded hroom hbytes).fed_eq_got]

/-- Each read but the last brings at least one byte, and the last needs room for one. -/
theorem reads_le (h : Receipt s host room t ending) : reads t ≤ room := by
  induction h with
  | last h => exact h.reads_le
  | @next room needed bytes u ending hneeded hroom hbytes hrest ih =>
    have hlength : 0 < bytes.val.length := List.length_pos_iff.2 hbytes
    have hreads : reads (turnCalls needed room bytes ++ u) = 1 + reads u := by
      rw [reads, List.countP_append]
      rfl
    rw [hreads]
    omega

theorem of_feed_error {bytes : Bytes} {e : EngineError} (h : Receipt s host room t ending)
    (ht : t = before ++ .engine (.feed bytes) (.error e) :: after) :
    after = [] ∧ ending = .failed (.engine e) := by
  induction h generalizing before with
  | last h =>
    subst ht
    exact h.of_feed_error
  | next chunk hneeded hroom hbytes hrest ih =>
    rcases append_eq_split ht with ⟨rest, hfirst, -⟩ | ⟨rest, hu, -⟩
    · rcases triple_eq_split hfirst with ⟨-, he, -⟩ | ⟨-, he, -⟩ | ⟨-, he, -⟩ <;> cases he
    · exact ih hu

end Receipt

/-- From the head of a turn on, the run is that of the loop with the room that the bytes fed so far leave. -/
theorem receive_from_head {needed : Nat} (hrun : HasRun setting (s.receive host room) t ending)
    (ht : t = before ++ .engine .bytesNeeded needed :: after) :
    fedCount before ≤ room ∧
      HasRun setting (s.receive host (room - fedCount before)) (.engine .bytesNeeded needed :: after) ending := by
  induction room using Nat.strongRecOn generalizing t before with
  | ind room ih =>
    cases (receive_turn s host room).of_hasRun hrun with
    | last h =>
      subst ht
      obtain rfl := h.calls.of_bytesNeeded
      exact ⟨Nat.zero_le room, hrun⟩
    | @next asked bytes u _ hneeded hroom hbytes hrest =>
      rcases append_eq_split ht with ⟨rest, hfirst, hafter⟩ | ⟨rest, hu, rfl⟩
      · have hcalls := turnCalls_calls bytes hneeded hroom hbytes
        rw [hfirst] at hcalls
        obtain rfl := hcalls.of_bytesNeeded
        rw [ht] at hrun
        exact ⟨Nat.zero_le room, hrun⟩
      · have hlength : 0 < bytes.val.length := List.length_pos_iff.2 hbytes
        have hle := length_le_room bytes
        obtain ⟨hfed, hhead⟩ := ih _ (by omega) hrest hu
        rw [fedCount_append, fedCount_turnCalls, ← Nat.sub_sub]
        exact ⟨by omega, hhead⟩

/-- What a run of the whole loop promises. What was received is what was fed, at the head of each turn and
so at each read. -/
structure SafelyReceived (setting : Setting σ) (s : StreamService) (host : String) (t : List Event)
    (ending : Ending KmsError Unit) : Prop where
  fed_le : ∀ before after, t = before ++ after → fedCount before ≤ s.responseLimit
  head : ∀ before needed after, t = before ++ .engine .bytesNeeded needed :: after →
    HasRun setting (s.receive host (s.responseLimit - fedCount before)) (.engine .bytesNeeded needed :: after)
      ending
  asks : ∀ before w answer after, t = before ++ .service (.read w) answer :: after →
    ∃ earlier needed, before = earlier ++ [.engine .bytesNeeded needed] ∧ 1 ≤ w ∧
      w = min needed (min 4096 (s.responseLimit - fedCount before))
  feeds : ∀ before bytes answer after, t = before ++ .engine (.feed bytes) answer :: after →
    ∃ earlier needed w chunk,
      before = earlier ++ [.engine .bytesNeeded needed, .service (.read w) (some (.ok chunk))] ∧
        chunk.val = bytes ∧ bytes ≠ [] ∧ bytes.length ≤ needed
  fed_at_once : ∀ before w (chunk : { bytes : Bytes // bytes.length ≤ w }) after,
    t = before ++ .service (.read w) (some (.ok chunk)) :: after → chunk.val ≠ [] →
      ∃ reply later, after = .engine (.feed chunk.val) reply :: later
  fed_eq_got : (fed t).flatten = (got t).flatten
  reads_le : reads t ≤ s.responseLimit
  ends : ending ≠ .unfinished
  done : ending = .done () → ∃ before, t = before ++ [.engine .bytesNeeded 0]
  tooLarge : ∀ h limit, ending = .failed (.responseTooLarge h limit) →
    h = host ∧ limit = s.responseLimit ∧ fedCount t = s.responseLimit ∧
      ∃ before needed, t = before ++ [.engine .bytesNeeded needed] ∧ 0 < needed
  unexpectedEnd : ∀ h remaining, ending = .failed (.unexpectedEnd h remaining) →
    h = host ∧ fedCount t < s.responseLimit ∧ 0 < remaining ∧
      ∃ before w chunk, chunk.val = [] ∧
        t = before ++ [.engine .bytesNeeded remaining, .service (.read w) (some (.ok chunk))]
  feed_error : ∀ before bytes e after, t = before ++ .engine (.feed bytes) (.error e) :: after →
    after = [] ∧ ending = .failed (.engine e)
  engine : ∀ e, ending = .failed (.engine e) →
    ∃ before bytes, t = before ++ [.engine (.feed bytes) (.error e)]

section Endings

variable (h : Receipt s host room t ending)
include h

theorem Receipt.done (hending : ending = .done ()) : ∃ before, t = before ++ [.engine .bytesNeeded 0] := by
  obtain ⟨earlier, final, rfl, -, hlast⟩ := h.exists_last
  subst hending
  cases hlast
  exact ⟨earlier, rfl⟩

theorem Receipt.tooLarge {name : String} {limit : Nat}
    (hending : ending = .failed (.responseTooLarge name limit)) :
    name = host ∧ limit = s.responseLimit ∧ fedCount t = room ∧
      ∃ before needed, t = before ++ [.engine .bytesNeeded needed] ∧ 0 < needed := by
  obtain ⟨earlier, final, rfl, hle, hlast⟩ := h.exists_last
  subst hending
  cases hlast with
  | @full needed hneeded hroom =>
    have hfed : fedCount (earlier ++ [.engine .bytesNeeded needed]) = fedCount earlier := by
      rw [fedCount_append]
      rfl
    exact ⟨rfl, rfl, by omega, earlier, needed, rfl, hneeded⟩

theorem Receipt.unexpectedEnd {name : String} {remaining : Nat}
    (hending : ending = .failed (.unexpectedEnd name remaining)) :
    name = host ∧ fedCount t < room ∧ 0 < remaining ∧
      ∃ before w chunk, chunk.val = [] ∧
        t = before ++ [.engine .bytesNeeded remaining, .service (.read w) (some (.ok chunk))] := by
  obtain ⟨earlier, final, rfl, hle, hlast⟩ := h.exists_last
  subst hending
  cases hlast with
  | ended hneeded hroom chunk hchunk =>
    have hfed : fedCount (earlier ++ [.engine .bytesNeeded remaining, .service (.read _) (some (.ok chunk))]) =
        fedCount earlier := by
      rw [fedCount_append]
      rfl
    exact ⟨rfl, by omega, hneeded, earlier, _, chunk, hchunk, rfl⟩

theorem Receipt.engine {e : EngineError} (hending : ending = .failed (.engine e)) :
    ∃ before bytes, t = before ++ [.engine (.feed bytes) (.error e)] := by
  obtain ⟨earlier, final, rfl, -, hlast⟩ := h.exists_last
  subst hending
  cases hlast with
  | rejected hneeded hroom bytes hbytes e =>
    exact ⟨earlier ++ [_, _], bytes.val, by rw [List.append_assoc]; rfl⟩

theorem Receipt.ne_unfinished : ending ≠ .unfinished := by
  obtain ⟨earlier, final, -, -, hlast⟩ := h.exists_last
  intro hending
  rw [hending] at hlast
  cases hlast

end Endings

/-- The receive loop is safe for any decryptor, any stream and any response limit. -/
theorem receive_safe (s : StreamService) (host : String) (setting : Setting σ) (scene : Scene σ) :
    SafelyReceived setting s host (s.receive host s.responseLimit setting scene).trace
      (s.receive host s.responseLimit setting scene).ending := by
  have hrun : HasRun setting (s.receive host s.responseLimit)
      (s.receive host s.responseLimit setting scene).trace
      (s.receive host s.responseLimit setting scene).ending := ⟨scene, rfl, rfl⟩
  have h := receipt_of_hasRun s host s.responseLimit hrun
  exact {
    fed_le := by
      intro before after ht
      have hle := h.fedCount_le
      rw [ht, fedCount_append] at hle
      omega
    head := fun before needed after ht => (receive_from_head hrun ht).2
    asks := by
      intro before w answer after ht
      obtain ⟨earlier, front, back, later, rfl, -, -, hcalls⟩ := h.turn_of_split ht
      obtain ⟨needed, rfl, hneeded, hroom, rfl, -⟩ := hcalls.of_read
      have hfed : fedCount (earlier ++ [.engine .bytesNeeded needed]) = fedCount earlier := by
        rw [fedCount_append]
        rfl
      rw [hfed]
      exact ⟨earlier, needed, rfl, want_pos hneeded hroom, rfl⟩
    feeds := by
      intro before bytes answer after ht
      obtain ⟨earlier, front, back, later, rfl, -, -, hcalls⟩ := h.turn_of_split ht
      obtain ⟨needed, w, chunk, rfl, hchunk⟩ := hcalls.of_feed
      exact ⟨earlier, needed, w, chunk, rfl, hchunk⟩
    fed_at_once := by
      intro before w chunk after ht hchunk
      obtain ⟨earlier, front, back, later, -, rfl, -, hcalls⟩ := h.turn_of_split ht
      obtain ⟨needed, -, -, -, -, hfeed⟩ := hcalls.of_read
      obtain ⟨reply, rfl⟩ := hfeed chunk rfl hchunk
      exact ⟨reply, later, rfl⟩
    fed_eq_got := congrArg List.flatten h.fed_eq_got
    reads_le := h.reads_le
    ends := h.ne_unfinished
    done := h.done
    tooLarge := fun name limit => h.tooLarge
    unexpectedEnd := fun name remaining => h.unexpectedEnd
    feed_error := fun before bytes e after => h.of_feed_error
    engine := fun e => h.engine }

end FieldSeal.StreamService
