/-!
Cutting a text at the first occurrence of a character.
-/

namespace FieldSeal.Text

/-- The parts before and after the first `mark`, if there is one. -/
def cutChars? (mark : Char) : List Char → Option (List Char × List Char)
  | [] => none
  | c :: rest =>
    if c = mark then some ([], rest)
    else (cutChars? mark rest).map fun (before, after) => (c :: before, after)

theorem cutChars?_eq_none_iff {mark : Char} {text : List Char} : cutChars? mark text = none ↔ mark ∉ text := by
  induction text with
  | nil => simp [cutChars?]
  | cons c rest ih =>
    by_cases hc : c = mark
    · simp [cutChars?, hc]
    · simp [cutChars?, hc, Ne.symm hc, ih]

/-- The part before the cut is free of the mark. -/
theorem cutChars?_eq_some_iff {mark : Char} {text before after : List Char} :
    cutChars? mark text = some (before, after) ↔ text = before ++ mark :: after ∧ mark ∉ before := by
  constructor
  · intro h
    induction text generalizing before with
    | nil => cases h
    | cons c rest ih =>
      unfold cutChars? at h
      split at h
      · next hc =>
        cases h
        exact ⟨by rw [hc, List.nil_append], List.not_mem_nil⟩
      · next hc =>
        obtain ⟨⟨first, last⟩, hcut, heq⟩ := Option.map_eq_some_iff.1 h
        cases heq
        obtain ⟨rfl, hfree⟩ := ih hcut
        rw [List.mem_cons, not_or]
        exact ⟨rfl, Ne.symm hc, hfree⟩
  · rintro ⟨rfl, hfree⟩
    induction before with
    | nil => exact if_pos rfl
    | cons b before ih =>
      rw [List.mem_cons, not_or] at hfree
      obtain ⟨hb, hfree⟩ := hfree
      rw [List.cons_append, cutChars?, if_neg (Ne.symm hb), ih hfree]
      rfl

def cut? (mark : Char) (text : String) : Option (String × String) :=
  (cutChars? mark text.toList).map fun (before, after) => (String.ofList before, String.ofList after)

theorem cut?_eq_some_iff {mark : Char} {text before after : String} : cut? mark text = some (before, after) ↔
    text.toList = before.toList ++ mark :: after.toList ∧ mark ∉ before.toList := by
  rw [← cutChars?_eq_some_iff, cut?, Option.map_eq_some_iff]
  constructor
  · rintro ⟨⟨first, last⟩, hcut, heq⟩
    obtain ⟨rfl, rfl⟩ := Prod.mk.inj heq
    rwa [String.toList_ofList, String.toList_ofList]
  · intro hcut
    exact ⟨_, hcut, Prod.ext String.ofList_toList String.ofList_toList⟩

end FieldSeal.Text
