import FieldSeal.Proofs.Interaction.Trace

/-!
Numbered parts of a trace. Marked events cut a trace into spans: span zero is what stands before the first of them,
span `k` is what follows the `k`-th up to the next.
-/

namespace FieldSeal.Trace

variable {mark : Event → Bool} {e : Event} {t u : List Event} {k : Nat}

def span (mark : Event → Bool) : Nat → List Event → List Event
  | _, [] => []
  | 0, e :: t => if mark e then [] else e :: span mark 0 t
  | k + 1, e :: t => if mark e then span mark k t else span mark (k + 1) t

@[simp] theorem span_nil (mark : Event → Bool) (k : Nat) : span mark k [] = [] := by
  cases k <;> rfl

theorem span_zero_of_mark (he : mark e = true) (t : List Event) : span mark 0 (e :: t) = [] := by
  rw [span, if_pos he]

theorem span_succ_of_mark (he : mark e = true) (k : Nat) (t : List Event) :
    span mark (k + 1) (e :: t) = span mark k t := by
  rw [span, if_pos he]

theorem span_zero_of_not (he : mark e = false) (t : List Event) :
    span mark 0 (e :: t) = e :: span mark 0 t := by
  rw [span, if_neg (Bool.eq_false_iff.1 he)]

theorem span_succ_of_not (he : mark e = false) (k : Nat) (t : List Event) :
    span mark (k + 1) (e :: t) = span mark (k + 1) t := by
  rw [span, if_neg (Bool.eq_false_iff.1 he)]

theorem countP_eq_zero_of (ht : ∀ e ∈ t, mark e = false) : t.countP mark = 0 :=
  List.countP_eq_zero.2 fun e he => Bool.eq_false_iff.1 (ht e he)

/-- A trace without marks is one span. -/
theorem span_zero_of_forall (ht : ∀ e ∈ t, mark e = false) : span mark 0 t = t := by
  induction t with
  | nil => rfl
  | cons e t ih =>
    obtain ⟨he, ht⟩ := List.forall_mem_cons.1 ht
    rw [span_zero_of_not he, ih ht]

theorem span_succ_of_forall (ht : ∀ e ∈ t, mark e = false) (k : Nat) : span mark (k + 1) t = [] := by
  induction t with
  | nil => rfl
  | cons e t ih =>
    obtain ⟨he, ht⟩ := List.forall_mem_cons.1 ht
    rw [span_succ_of_not he, ih ht]

/-- Spans of the second trace are counted on from those of the first. -/
theorem span_append (mark : Event → Bool) (k : Nat) (t u : List Event) :
    span mark k (t ++ u) =
      span mark k t ++ if t.countP mark ≤ k then span mark (k - t.countP mark) u else [] := by
  induction t generalizing k with
  | nil =>
    rw [span_nil, List.countP_nil, if_pos (Nat.zero_le k)]
    rfl
  | cons e t ih =>
    rw [List.cons_append]
    cases he : mark e with
    | true =>
      rw [List.countP_cons_of_pos he]
      cases k with
      | zero =>
        rw [span_zero_of_mark he, span_zero_of_mark he, if_neg (Nat.not_succ_le_zero _)]
        rfl
      | succ k =>
        rw [span_succ_of_mark he, span_succ_of_mark he, ih, Nat.add_sub_add_right]
        simp only [Nat.add_le_add_iff_right]
    | false =>
      rw [List.countP_cons_of_neg (Bool.eq_false_iff.1 he)]
      cases k with
      | zero => rw [span_zero_of_not he, span_zero_of_not he, ih, List.cons_append]
      | succ k => rw [span_succ_of_not he, span_succ_of_not he, ih]

section Selection

variable {β : Type} (f : Event → Option β)

/-- What is selected from a span of two traces in a row. -/
theorem filterMap_span_append (mark : Event → Bool) (k : Nat) (t u : List Event) :
    (span mark k (t ++ u)).filterMap f = (span mark k t).filterMap f ++
      if t.countP mark ≤ k then (span mark (k - t.countP mark) u).filterMap f else [] := by
  rw [span_append, List.filterMap_append]
  by_cases h : t.countP mark ≤ k
  · rw [if_pos h, if_pos h]
  · rw [if_neg h, if_neg h, List.filterMap_nil]

theorem filterMap_span_of_forall (ht : ∀ e ∈ t, mark e = false) (k : Nat) :
    (span mark k t).filterMap f = if k = 0 then t.filterMap f else [] := by
  cases k with
  | zero => rw [if_pos rfl, span_zero_of_forall ht]
  | succ k => rw [if_neg (Nat.succ_ne_zero k), span_succ_of_forall ht, List.filterMap_nil]

end Selection

end FieldSeal.Trace
