import FieldSeal.Proofs.Interaction.CallsOf
import FieldSeal.Proofs.Kms.Receiving

/-!
Sending the message of a round trip. Each write offers what is left of the message, and once all of it is taken the
connection is flushed. `Writing` and `Sending` describe the traces of this with their endings.
-/

namespace FieldSeal

namespace Event

/-- Calls that send the message. -/
def isSending : Event → Bool
  | .service (.write _) _ | .service .flush _ => true
  | _ => false

def isFlush : Event → Bool
  | .service .flush _ => true
  | _ => false

/-- The bytes that a write gets rid of. -/
def accepted? : Event → Option Bytes
  | .service (.write bytes) (some (.ok count)) => some (bytes.take count)
  | _ => none

end Event

namespace Trace

/-- All bytes that are accepted by writes, in their order. -/
def accepted (t : List Event) : Bytes :=
  (t.filterMap Event.accepted?).flatten

@[simp] theorem accepted_nil : accepted [] = [] := rfl

@[simp] theorem accepted_append (t u : List Event) : accepted (t ++ u) = accepted t ++ accepted u := by
  simp [accepted]

theorem accepted_write_cons (bytes : Bytes) (count : Fin (bytes.length + 1)) (t : List Event) :
    accepted (.service (.write bytes) (some (.ok count)) :: t) = bytes.take count ++ accepted t := rfl

end Trace

namespace StreamService

open FieldSeal.Action FieldSeal.Trace

variable {σ : Type} {setting : Setting σ} {host : String} {left : Bytes} {request : KeyRequest}
  {t before after : List Event} {ending : Ending KmsError Unit}

/-- The writes of a message of which `left` has still to be taken. A write is cut off by the limit on all of
them, or by the caller's own deadline. -/
inductive Writing (host : String) : Bytes → List Event → Ending KmsError Unit → Prop where
  | written : Writing host [] [] (.done ())
  | taken {left : Bytes} (hleft : left ≠ []) (count : Fin (left.length + 1)) (hcount : count.val ≠ 0)
      {t : List Event} {ending : Ending KmsError Unit} (hrest : Writing host (left.drop count) t ending) :
      Writing host left (.service (.write left) (some (.ok count)) :: t) ending
  | stalled {left : Bytes} (hleft : left ≠ []) (count : Fin (left.length + 1)) (hcount : count.val = 0) :
      Writing host left [.service (.write left) (some (.ok count))] (.failed (.io host (.plain "write zero")))
  | broken {left : Bytes} (hleft : left ≠ []) (cause : Fault) :
      Writing host left [.service (.write left) (some (.error cause))] (.failed (.io host cause))
  | late {left : Bytes} (hleft : left ≠ []) :
      Writing host left [.service (.write left) none] (.failed (.timeout host "write"))
  | abandoned {left : Bytes} (hleft : left ≠ []) : Writing host left [.service (.write left) none] .expired

theorem writeAll_writing (host : String) (message : Bytes) :
    Yields setting (writeAll host message) (Writing host message) := by
  induction hlength : message.length using Nat.strongRecOn generalizing message with
  | ind n ih =>
    rw [writeAll.eq_def]
    cases message with
    | nil => exact yields_pure .written
    | cons b rest =>
      have hleft : b :: rest ≠ [] := List.cons_ne_nil b rest
      refine yields_await (.abandoned hleft) ?_
      intro answer
      cases answer with
      | error cause => exact yields_fail (.broken hleft cause)
      | ok count =>
        obtain ⟨_ | count, hcount⟩ := count
        · exact yields_fail (.stalled hleft ⟨0, hcount⟩ rfl)
        · -- at least one byte is taken, so that less is left to offer
          have hshorter : (rest.drop count).length < n := by
            rw [List.length_cons] at hlength
            rw [List.length_drop]
            omega
          refine (ih _ hshorter (rest.drop count) rfl).mono fun t ending ht => ?_
          exact .taken hleft ⟨count + 1, hcount⟩ (Nat.succ_ne_zero count) ht

namespace Writing

/-- Where the caller could have given up, the limit could have been reached. -/
theorem of_expired (h : Writing host left t ending) (hending : ending = .expired) :
    Writing host left t (.failed (.timeout host "write")) := by
  induction h with
  | taken hleft count hcount hrest ih => exact .taken hleft count hcount (ih hending)
  | abandoned hleft => exact .late hleft
  | _ => cases hending

theorem callsOf (h : Writing host left t ending) : CallsOf Event.isSending t ending := by
  induction h with
  | written => exact .nil nofun nofun
  | taken hleft count hcount hrest ih =>
    have hwrite : CallsOf Event.isSending [.service (.write _) (some (.ok count))]
        (.done () : Ending KmsError Unit) := .singleton rfl nofun nofun
    exact hwrite.append ih
  | stalled hleft count hcount => exact .singleton rfl nofun nofun
  | broken hleft cause => exact .singleton rfl nofun nofun
  | late hleft => exact .singleton rfl nofun nofun
  | abandoned hleft => exact .singleton rfl (fun _ => endsCut_singleton _) nofun

theorem not_isFlush (h : Writing host left t ending) : ∀ e ∈ t, e.isFlush = false := by
  induction h with
  | written => exact List.forall_mem_nil _
  | taken hleft count hcount hrest ih => exact List.forall_mem_cons.2 ⟨rfl, ih⟩
  | _ => exact List.forall_mem_singleton.2 rfl

theorem accepted_eq (h : Writing host left t ending) (hending : ending = .done ()) : accepted t = left := by
  induction h with
  | written => rfl
  | @taken left hleft count hcount u ending hrest ih =>
    rw [accepted_write_cons, ih hending, List.take_append_drop]
  | _ => cases hending

/-- Bytes are left over unless all writes are done. -/
theorem exists_rest (h : Writing host left t ending) (hending : ending ≠ .done ()) :
    ∃ rest, rest ≠ [] ∧ accepted t ++ rest = left := by
  induction h with
  | written => exact absurd rfl hending
  | @taken left hleft count hcount u ending hrest ih =>
    obtain ⟨rest, hne, heq⟩ := ih hending
    refine ⟨rest, hne, ?_⟩
    rw [accepted_write_cons, List.append_assoc, heq, List.take_append_drop]
  | @stalled left hleft count hcount =>
    refine ⟨left, hleft, ?_⟩
    rw [accepted_write_cons, hcount]
    rfl
  | @broken left hleft cause => exact ⟨left, hleft, rfl⟩
  | @late left hleft => exact ⟨left, hleft, rfl⟩
  | @abandoned left hleft => exact ⟨left, hleft, rfl⟩

/-- Each write offers exactly what is left. -/
theorem of_write {bytes : Bytes} {answer : Option (ServiceCall.write bytes).Answer}
    (h : Writing host left t ending) (ht : t = before ++ .service (.write bytes) answer :: after) :
    bytes ≠ [] ∧ accepted before ++ bytes = left := by
  induction h generalizing before with
  | written => exact absurd ht (by simp)
  | @taken left hleft count hcount u ending hrest ih =>
    rcases cons_eq_split ht with ⟨rfl, he, -⟩ | ⟨earlier, rfl, hu⟩
    · cases he
      exact ⟨hleft, rfl⟩
    · obtain ⟨hne, heq⟩ := ih hu
      refine ⟨hne, ?_⟩
      rw [accepted_write_cons, List.append_assoc, heq, List.take_append_drop]
  | stalled hleft count hcount =>
    obtain ⟨rfl, he, -⟩ := singleton_eq_split ht
    cases he
    exact ⟨hleft, rfl⟩
  | broken hleft cause =>
    obtain ⟨rfl, he, -⟩ := singleton_eq_split ht
    cases he
    exact ⟨hleft, rfl⟩
  | late hleft =>
    obtain ⟨rfl, he, -⟩ := singleton_eq_split ht
    cases he
    exact ⟨hleft, rfl⟩
  | abandoned hleft =>
    obtain ⟨rfl, he, -⟩ := singleton_eq_split ht
    cases he
    exact ⟨hleft, rfl⟩

end Writing

/-- The flush after the writes. -/
inductive Flushing (host : String) : List Event → Ending KmsError Unit → Prop where
  | flushed : Flushing host [.service .flush (some (.ok ()))] (.done ())
  | broken (cause : Fault) : Flushing host [.service .flush (some (.error cause))] (.failed (.io host cause))
  | late : Flushing host [.service .flush none] (.failed (.timeout host "write"))
  | abandoned : Flushing host [.service .flush none] .expired

theorem flush_flushing (host : String) : Yields setting (flush host) (Flushing host) := by
  refine yields_await .abandoned ?_
  intro answer
  cases answer with
  | error cause => exact yields_fail (.broken cause)
  | ok _ => exact yields_pure .flushed

theorem Flushing.callsOf (h : Flushing host t ending) : CallsOf Event.isSending t ending := by
  cases h with
  | flushed => exact .singleton rfl nofun nofun
  | broken cause => exact .singleton rfl nofun nofun
  | late => exact .singleton rfl nofun nofun
  | abandoned => exact .singleton rfl (fun _ => endsCut_singleton _) nofun

/-- A flush is one call. -/
theorem Flushing.eq_singleton (h : Flushing host t ending) : ∃ answer, t = [.service .flush answer] := by
  cases h <;> exact ⟨_, rfl⟩

/-- The message is written and flushed, each under the limit. -/
inductive Sending (request : KeyRequest) : List Event → Ending KmsError Unit → Prop where
  | unwritten {t : List Event} {ending : Ending KmsError Unit}
      (h : Writing request.host request.message t ending) (hending : ending ≠ .done ()) :
      Sending request t ending
  | written {t u : List Event} {ending : Ending KmsError Unit}
      (hwritten : Writing request.host request.message t (.done ())) (h : Flushing request.host u ending) :
      Sending request (t ++ u) ending

theorem yields_sending (request : KeyRequest) (limit : Nat) :
    Yields setting (do
      inTime request.host "write" limit (writeAll request.host request.message)
      inTime request.host "write" limit (flush request.host)) (Sending request) := by
  have hwrite : Yields setting (inTime request.host "write" limit (writeAll request.host request.message))
      (Writing request.host request.message) :=
    yields_inTime (fun deadline => writeAll_writing request.host request.message) (fun t a ht => ht)
      (fun t ht => ht.of_expired rfl) fun t stop ht => ht
  have hflush : Yields setting (inTime request.host "write" limit (flush request.host))
      (Flushing request.host) := by
    refine yields_inTime (fun deadline => flush_flushing request.host) (fun t a ht => ht) ?_ fun t stop ht => ht
    intro t ht
    cases ht
    exact .late
  refine hwrite.bind ?_ ?_
  · intro t _ ht
    exact hflush.mono fun u ending hu => .written ht hu
  · intro t stop ht
    exact .unwritten ht (by cases stop <;> exact nofun)

namespace Sending

theorem callsOf (h : Sending request t ending) : CallsOf Event.isSending t ending := by
  cases h with
  | unwritten h hending => exact h.callsOf
  | written hwritten h => exact hwritten.callsOf.append h.callsOf

/-- Each write offers exactly the part of the message that is not accepted yet. -/
theorem of_write {bytes : Bytes} {answer : Option (ServiceCall.write bytes).Answer} (h : Sending request t ending)
    (ht : t = before ++ .service (.write bytes) answer :: after) :
    bytes ≠ [] ∧ accepted before ++ bytes = request.message := by
  cases h with
  | unwritten h hending => exact h.of_write ht
  | written hwritten h =>
    obtain ⟨reply, rfl⟩ := h.eq_singleton
    rcases append_eq_split ht with ⟨rest, hwrites, -⟩ | ⟨rest, hflush, -⟩
    · exact hwritten.of_write hwrites
    · obtain ⟨-, he, -⟩ := singleton_eq_split hflush
      cases he

theorem accepted_prefix (h : Sending request t ending) : accepted t <+: request.message := by
  cases h with
  | unwritten h hending =>
    obtain ⟨rest, -, heq⟩ := h.exists_rest hending
    exact ⟨rest, heq⟩
  | written hwritten h =>
    obtain ⟨reply, rfl⟩ := h.eq_singleton
    rw [accepted_append, hwritten.accepted_eq rfl]
    exact ⟨[], by simp [accepted, Event.accepted?]⟩

/-- The flush comes last, and only after the whole message is accepted. -/
theorem of_flush {answer : Option (Except Fault Unit)} (h : Sending request t ending)
    (ht : t = before ++ .service .flush answer :: after) :
    accepted before = request.message ∧ (∀ e ∈ before, e.isFlush = false) ∧ after = [] := by
  cases h with
  | unwritten h hending =>
    have hflush := h.not_isFlush (.service .flush answer) (by simp [ht])
    cases hflush
  | written hwritten h =>
    obtain ⟨reply, rfl⟩ := h.eq_singleton
    rcases append_eq_split ht with ⟨rest, hwrites, -⟩ | ⟨rest, hflush, rfl⟩
    · have hflush := hwritten.not_isFlush (.service .flush answer) (by simp [hwrites])
      cases hflush
    · obtain ⟨rfl, -, hafter⟩ := singleton_eq_split hflush
      rw [List.append_nil]
      exact ⟨hwritten.accepted_eq rfl, hwritten.not_isFlush, hafter⟩

/-- Once the whole message is accepted the flush is next. -/
theorem flush_next (h : Sending request t ending) (ht : t = before ++ after)
    (haccepted : accepted before = request.message) (hflush : ∀ e ∈ before, e.isFlush = false) :
    ∃ answer, after = [.service .flush answer] := by
  cases h with
  | unwritten h hending =>
    -- bytes would be left over that no write has offered
    obtain ⟨rest, hne, heq⟩ := h.exists_rest hending
    rw [ht, accepted_append, haccepted, List.append_assoc] at heq
    have hnil := List.append_right_eq_self.1 heq
    exact absurd (List.append_eq_nil_iff.1 hnil).2 hne
  | @written t u _ hwritten h =>
    obtain ⟨reply, rfl⟩ := h.eq_singleton
    rcases List.append_eq_append_iff.1 ht with ⟨rest, rfl, hrest⟩ | ⟨rest, rfl, rfl⟩
    · cases rest with
      | nil => exact ⟨reply, hrest.symm⟩
      | cons e rest =>
        obtain ⟨rfl, -⟩ := List.cons.inj hrest
        have hfirst := hflush (.service .flush reply) (by simp)
        cases hfirst
    · cases rest with
      | nil => exact ⟨reply, rfl⟩
      | cons e rest =>
        -- a write after the whole message would have nothing to offer
        obtain ⟨bytes, answer, rfl⟩ : ∃ bytes answer, e = .service (.write bytes) answer := by
          have hsending := hwritten.callsOf.only e (by simp)
          have hnot := hwritten.not_isFlush e (by simp)
          unfold Event.isSending at hsending
          split at hsending
          · exact ⟨_, _, rfl⟩
          · cases hnot
          · cases hsending
        have hsplit : before ++ .service (.write bytes) answer :: rest =
            before ++ .service (.write bytes) answer :: rest := rfl
        obtain ⟨hne, heq⟩ := hwritten.of_write hsplit
        rw [haccepted] at heq
        exact absurd (List.append_right_eq_self.1 heq) hne

/-- A message that is sent was flushed at last. -/
theorem flushed (h : Sending request t ending) (hending : ending = .done ()) :
    ∃ writes, t = writes ++ [.service .flush (some (.ok ()))] := by
  cases h with
  | unwritten h hnot => exact absurd hending hnot
  | written hwritten h =>
    subst hending
    cases h
    exact ⟨_, rfl⟩

end Sending

end StreamService

end FieldSeal
