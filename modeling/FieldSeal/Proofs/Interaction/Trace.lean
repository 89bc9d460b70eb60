import FieldSeal.Interaction.World

/-!
Reading traces: what was fed to decryptors, what was read from connections, and where in a trace an event
stands.
-/

namespace FieldSeal

namespace Event

/-- The bytes that a call feeds. -/
def fed? : Event → Option Bytes
  | .engine (.feed bytes) _ => some bytes
  | _ => none

/-- The bytes that a call reads; an empty answer is the end of the stream and brings none. -/
def got? : Event → Option Bytes
  | .service (.read _) (some (.ok bytes)) => if bytes.val = [] then none else some bytes.val
  | _ => none

def isRead : Event → Bool
  | .service (.read _) _ => true
  | _ => false

end Event

namespace Trace

/-- The feeds of a trace in their order. -/
def fed (t : List Event) : List Bytes :=
  t.filterMap Event.fed?

/-- The reads of a trace that brought bytes, in their order. -/
def got (t : List Event) : List Bytes :=
  t.filterMap Event.got?

def reads (t : List Event) : Nat :=
  t.countP Event.isRead

/-- How many bytes were fed. -/
def fedCount (t : List Event) : Nat :=
  (fed t).flatten.length

/-- The last call of the trace was cut off. -/
def EndsCut (t : List Event) : Prop :=
  ∃ (before : List Event) (call : ServiceCall), t = before ++ [.service call none]

theorem EndsCut.append {t : List Event} (h : EndsCut t) (u : List Event) : EndsCut (u ++ t) := by
  obtain ⟨before, call, rfl⟩ := h
  exact ⟨u ++ before, call, by rw [List.append_assoc]⟩

theorem endsCut_singleton (call : ServiceCall) : EndsCut [.service call none] :=
  ⟨[], call, rfl⟩

@[simp] theorem fed_nil : fed [] = [] := rfl

@[simp] theorem got_nil : got [] = [] := rfl

@[simp] theorem fed_append (t u : List Event) : fed (t ++ u) = fed t ++ fed u :=
  List.filterMap_append

@[simp] theorem got_append (t u : List Event) : got (t ++ u) = got t ++ got u :=
  List.filterMap_append

@[simp] theorem fedCount_append (t u : List Event) : fedCount (t ++ u) = fedCount t + fedCount u := by
  simp [fedCount]

variable {α : Type}

/-- An event of two traces in a row is an event of the first or of the second. -/
theorem append_eq_split {t u before after : List α} {e : α} (h : t ++ u = before ++ e :: after) :
    (∃ rest, t = before ++ e :: rest ∧ after = rest ++ u) ∨
      ∃ rest, u = rest ++ e :: after ∧ before = t ++ rest := by
  rcases List.append_eq_append_iff.1 h with ⟨rest, hbefore, hu⟩ | ⟨rest, ht, hafter⟩
  · exact .inr ⟨rest, hu, hbefore⟩
  · cases rest with
    | nil => exact .inr ⟨[], by simpa using hafter.symm, by simpa using ht.symm⟩
    | cons x rest =>
      obtain ⟨rfl, rfl⟩ := List.cons.inj hafter
      exact .inl ⟨rest, ht, rfl⟩

theorem cons_eq_split {x e : α} {t before after : List α} (h : x :: t = before ++ e :: after) :
    (before = [] ∧ x = e ∧ after = t) ∨ ∃ rest, before = x :: rest ∧ t = rest ++ e :: after := by
  rcases List.cons_eq_append_iff.1 h with ⟨rfl, heq⟩ | ⟨rest, rfl, rfl⟩
  · obtain ⟨rfl, rfl⟩ := List.cons.inj heq
    exact .inl ⟨rfl, rfl, rfl⟩
  · exact .inr ⟨rest, rfl, rfl⟩

/-- A statement about all places of a trace is one about the first and one about the others. -/
theorem forall_split_cons_iff {x : α} {t : List α} {P : List α → α → Prop} :
    (∀ before e after, x :: t = before ++ e :: after → P before e) ↔
      P [] x ∧ ∀ before e after, t = before ++ e :: after → P (x :: before) e := by
  refine ⟨fun h => ⟨h [] x t rfl, fun before e after ht => h (x :: before) e after (by rw [ht]; rfl)⟩, ?_⟩
  rintro ⟨hx, ht⟩ before e after hsplit
  rcases cons_eq_split hsplit with ⟨rfl, rfl, -⟩ | ⟨rest, rfl, hrest⟩
  · exact hx
  · exact ht rest e after hrest

theorem forall_split_nil_iff {P : List α → α → Prop} :
    (∀ before e after, [] = before ++ e :: after → P before e) ↔ True :=
  iff_true_intro fun before e after h => absurd h (by simp)

theorem singleton_eq_split {x e : α} {before after : List α} (h : [x] = before ++ e :: after) :
    before = [] ∧ x = e ∧ after = [] := by
  rcases cons_eq_split h with hfirst | ⟨rest, -, hnil⟩
  · exact hfirst
  · exact absurd hnil.symm (by simp)

theorem pair_eq_split {x y e : α} {before after : List α} (h : [x, y] = before ++ e :: after) :
    (before = [] ∧ x = e ∧ after = [y]) ∨ (before = [x] ∧ y = e ∧ after = []) := by
  rcases cons_eq_split h with hfirst | ⟨rest, rfl, hrest⟩
  · exact .inl hfirst
  · obtain ⟨rfl, he, hafter⟩ := singleton_eq_split hrest
    exact .inr ⟨rfl, he, hafter⟩

theorem triple_eq_split {x y z e : α} {before after : List α} (h : [x, y, z] = before ++ e :: after) :
    (before = [] ∧ x = e ∧ after = [y, z]) ∨ (before = [x] ∧ y = e ∧ after = [z]) ∨
      (before = [x, y] ∧ z = e ∧ after = []) := by
  rcases cons_eq_split h with hfirst | ⟨rest, rfl, hrest⟩
  · exact .inl hfirst
  · rcases pair_eq_split hrest with ⟨rfl, he, hafter⟩ | ⟨rfl, he, hafter⟩
    · exact .inr (.inl ⟨rfl, he, hafter⟩)
    · exact .inr (.inr ⟨rfl, he, hafter⟩)

end Trace

end FieldSeal
