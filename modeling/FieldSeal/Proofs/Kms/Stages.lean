import FieldSeal.Proofs.Kms.Orderly

/-!
The stages of a connection. An exchange goes through them in their order: it flushes once, when the whole message is
accepted, and reads only after that.
-/

namespace FieldSeal

/-- The stages of a connection, in their order; the last number is for all other events. -/
def Event.stage : Event → Nat
  | .service (.connect _ _) _ => 0
  | .service (.write _) _ => 1
  | .service .flush _ => 2
  | .engine .bytesNeeded _ | .service (.read _) _ | .engine (.feed _) _ => 3
  | .service .shutdown _ => 4
  | _ => 5

namespace StreamService

open FieldSeal.Trace

variable {s : StreamService} {request : KeyRequest} {t u before after : List Event} {ending : Ending KmsError Unit}

/-- Stages do not decrease. -/
def InOrder (t : List Event) : Prop :=
  t.Pairwise fun a b => a.stage ≤ b.stage

theorem inOrder_of_stage {n : Nat} (ht : ∀ e ∈ t, e.stage = n) : InOrder t := by
  induction t with
  | nil => exact .nil
  | cons e t ih =>
    obtain ⟨he, ht⟩ := List.forall_mem_cons.1 ht
    exact .cons (fun a ha => Nat.le_of_eq (he.trans (ht a ha).symm)) (ih ht)

/-- All stages of the first part come before those of the second. -/
theorem InOrder.append {n : Nat} (ht : InOrder t) (hu : InOrder u) (hbefore : ∀ e ∈ t, e.stage ≤ n)
    (hafter : ∀ e ∈ u, n ≤ e.stage) : InOrder (t ++ u) :=
  List.pairwise_append.2 ⟨ht, hu, fun a ha b hb => Nat.le_trans (hbefore a ha) (hafter b hb)⟩

theorem stage_eq_one {e : Event} (hsending : e.isSending = true) (hflush : e.isFlush = false) : e.stage = 1 := by
  unfold Event.isSending at hsending
  split at hsending
  · rfl
  · cases hflush
  · cases hsending

theorem Writing.stage {host : String} {left : Bytes} (h : Writing host left t ending) : ∀ e ∈ t, e.stage = 1 :=
  fun e he => stage_eq_one (h.callsOf.only e he) (h.not_isFlush e he)

theorem Flushing.stage {host : String} (h : Flushing host t ending) : ∀ e ∈ t, e.stage = 2 := by
  obtain ⟨answer, rfl⟩ := h.eq_singleton
  exact List.forall_mem_singleton.2 rfl

theorem Sending.stage (h : Sending request t ending) : ∀ e ∈ t, 1 ≤ e.stage ∧ e.stage ≤ 2 := by
  cases h with
  | unwritten h hending => exact fun e he => by rw [h.stage e he]; decide
  | written hwritten h =>
    refine List.forall_mem_append.2 ⟨fun e he => ?_, fun e he => ?_⟩
    · rw [hwritten.stage e he]
      decide
    · rw [h.stage e he]
      decide

theorem Sending.inOrder (h : Sending request t ending) : InOrder t := by
  cases h with
  | unwritten h hending => exact inOrder_of_stage h.stage
  | written hwritten h =>
    exact (inOrder_of_stage hwritten.stage).append (inOrder_of_stage h.stage)
      (fun e he => Nat.le_of_eq (hwritten.stage e he)) fun e he => by rw [h.stage e he]; decide

theorem TurnCalls.stage {room : Nat} (h : TurnCalls room t) : ∀ e ∈ t, e.stage = 3 := by
  cases h with
  | asked needed => simp [Event.stage]
  | read hneeded hroom answer hnone => simp [Event.stage]
  | fed hneeded hroom bytes hbytes answer => simp [Event.stage]

theorem Receipt.stage {host : String} {room : Nat} (h : Receipt s host room t ending) :
    ∀ e ∈ t, e.stage = 3 := by
  intro e he
  obtain ⟨before, after, ht⟩ := List.append_of_mem he
  obtain ⟨earlier, front, back, later, -, -, -, hcalls⟩ := h.turn_of_split ht
  exact hcalls.stage e (by simp)

/-- Only writes have bytes accepted. -/
theorem accepted_of_stage (ht : ∀ e ∈ t, e.stage = 3) : accepted t = [] := by
  have hnone : t.filterMap Event.accepted? = [] := by
    refine List.filterMap_eq_nil_iff.2 fun e he => ?_
    have hstage := ht e he
    unfold Event.accepted?
    split
    · cases hstage
    · rfl
  rw [accepted, hnone]
  rfl

namespace Exchange

theorem stage (h : Exchange s request t ending) : ∀ e ∈ t, 1 ≤ e.stage ∧ e.stage ≤ 3 := by
  have hsending : ∀ {u : List Event} {outcome : Ending KmsError Unit}, Sending request u outcome →
      ∀ e ∈ u, 1 ≤ e.stage ∧ e.stage ≤ 3 := by
    intro u outcome hu e he
    have hstage := hu.stage e he
    omega
  cases h with
  | unsent h hending => exact hsending h
  | received hsent h =>
    refine List.forall_mem_append.2 ⟨hsending hsent, fun e he => ?_⟩
    rw [h.stage e he]
    decide

theorem inOrder (h : Exchange s request t ending) : InOrder t := by
  cases h with
  | unsent h hending => exact h.inOrder
  | received hsent h =>
    exact hsent.inOrder.append (inOrder_of_stage h.stage) (fun e he => (hsent.stage e he).2) fun e he => by
      rw [h.stage e he]
      decide

theorem of_write {bytes : Bytes} {answer : Option (ServiceCall.write bytes).Answer} (h : Exchange s request t ending)
    (ht : t = before ++ .service (.write bytes) answer :: after) :
    bytes ≠ [] ∧ accepted before ++ bytes = request.message := by
  cases h with
  | unsent h hending => exact h.of_write ht
  | received hsent h =>
    rcases append_eq_split ht with ⟨rest, hsending, -⟩ | ⟨rest, hreceived, -⟩
    · exact hsent.of_write hsending
    · have hstage := h.stage (.service (.write bytes) answer) (by simp [hreceived])
      cases hstage

theorem accepted_prefix (h : Exchange s request t ending) : accepted t <+: request.message := by
  cases h with
  | unsent h hending => exact h.accepted_prefix
  | received hsent h =>
    rw [accepted_append, accepted_of_stage h.stage, List.append_nil]
    exact hsent.accepted_prefix

theorem of_flush {answer : Option (Except Fault Unit)} (h : Exchange s request t ending)
    (ht : t = before ++ .service .flush answer :: after) :
    accepted before = request.message ∧ ∀ e ∈ before ++ after, e.isFlush = false := by
  cases h with
  | unsent h hending =>
    obtain ⟨haccepted, hbefore, rfl⟩ := h.of_flush ht
    rw [List.append_nil]
    exact ⟨haccepted, hbefore⟩
  | received hsent h =>
    rcases append_eq_split ht with ⟨rest, hsending, rfl⟩ | ⟨rest, hreceived, -⟩
    · obtain ⟨haccepted, hbefore, rfl⟩ := hsent.of_flush hsending
      refine ⟨haccepted, List.forall_mem_append.2 ⟨hbefore, fun e he => ?_⟩⟩
      have hstage := h.stage e he
      unfold Event.isFlush
      split
      · cases hstage
      · rfl
    · have hstage := h.stage (.service .flush answer) (by simp [hreceived])
      cases hstage

theorem flush_next (h : Exchange s request t ending) (ht : t = before ++ after)
    (haccepted : accepted before = request.message) (hflush : ∀ e ∈ before, e.isFlush = false) :
    ∃ answer rest, after = .service .flush answer :: rest := by
  cases h with
  | unsent h hending =>
    obtain ⟨answer, rfl⟩ := h.flush_next ht haccepted hflush
    exact ⟨answer, [], rfl⟩
  | received hsent h =>
    rcases List.append_eq_append_iff.1 ht with ⟨rest, rfl, -⟩ | ⟨rest, rfl, rfl⟩
    · -- the flush of the message that was sent would stand before
      obtain ⟨writes, rfl⟩ := hsent.flushed rfl
      have hfirst := hflush (.service .flush (some (.ok ()))) (by simp)
      cases hfirst
    · obtain ⟨answer, rfl⟩ := hsent.flush_next rfl haccepted hflush
      exact ⟨answer, _, rfl⟩

theorem of_stage_three {e : Event} (h : Exchange s request t ending) (ht : t = before ++ e :: after)
    (he : e.stage = 3) : .service .flush (some (.ok ())) ∈ before := by
  have hunsent : ∀ {u : List Event} {outcome : Ending KmsError Unit}, Sending request u outcome → e ∉ u := by
    intro u outcome hu hmem
    have hstage := hu.stage e hmem
    omega
  cases h with
  | unsent h hending => exact absurd (by simp [ht]) (hunsent h)
  | received hsent h =>
    rcases append_eq_split ht with ⟨rest, hsending, -⟩ | ⟨rest, -, rfl⟩
    · exact absurd (by simp [hsending]) (hunsent hsent)
    · obtain ⟨writes, rfl⟩ := hsent.flushed rfl
      simp

theorem of_done (h : Exchange s request t ending) (hending : ending = .done ()) :
    ∃ before, t = before ++ [.engine .bytesNeeded 0] := by
  cases h with
  | unsent h hnot => exact absurd hending hnot
  | received hsent h =>
    obtain ⟨before, rfl⟩ := h.done hending
    exact ⟨_, (List.append_assoc _ _ _).symm⟩

end Exchange

end StreamService

end FieldSeal
