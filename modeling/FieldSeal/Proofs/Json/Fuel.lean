import Mathlib.Data.List.DropRight
import FieldSeal.Json.Reader

/-!
The reader of values goes forward with every step, so fuel for twice the length of a text is enough, and what is read
does not depend on it.
-/

namespace FieldSeal.Json.Reader

section Forward

variable {cs rest : List Char}

theorem length_skipBlank_le (cs : List Char) : (skipBlank cs).length ≤ cs.length :=
  (List.dropWhile_sublist _).length_le

theorem length_lt_of_skipBlank {c : Char} (h : skipBlank cs = c :: rest) : rest.length < cs.length := by
  have hle := length_skipBlank_le cs
  rw [h, List.length_cons] at hle
  exact hle

theorem skipBlank_skipBlank (cs : List Char) : skipBlank (skipBlank cs) = skipBlank cs :=
  List.dropWhile_idempotent _ cs

theorem length_string?_lt {pieces : List Piece} (h : string? cs = some (pieces, rest)) : rest.length < cs.length := by
  fun_induction string? cs generalizing pieces with
  | case1 => simp_all
  | case2 a b c d tail ih =>
    simp only [Option.bind_eq_bind, Option.bind_eq_some_iff, Prod.exists] at h
    obtain ⟨n, -, pieces', tail', htail, h⟩ := h
    cases h
    have := ih htail
    simp only [List.length_cons]
    omega
  | case3 c tail _ ih =>
    simp only [Option.bind_eq_bind, Option.bind_eq_some_iff, Prod.exists] at h
    obtain ⟨e, -, pieces', tail', htail, h⟩ := h
    cases h
    have := ih htail
    simp only [List.length_cons]
    omega
  | case4 => cases h
  | case5 c tail _ _ _ _ ih =>
    simp only [Option.map_eq_some_iff, Prod.exists] at h
    obtain ⟨pieces', tail', htail, h⟩ := h
    cases h
    have := ih htail
    simp only [List.length_cons]
    omega
  | case6 => cases h

theorem length_digits?_lt {ds : List Nat} (h : digits? cs = some (ds, rest)) : rest.length < cs.length := by
  simp only [digits?, digits, Option.ite_none_left_eq_some, List.map_eq_nil_iff] at h
  obtain ⟨hne, h⟩ := h
  cases h
  have hlength := congrArg List.length (List.takeWhile_append_dropWhile (p := Char.isDigit) (l := cs))
  rw [List.length_append] at hlength
  have hpos := List.length_pos_iff.2 hne
  omega

theorem length_whole?_lt {ds : List Nat} (h : whole? cs = some (ds, rest)) : rest.length < cs.length := by
  obtain ⟨⟨ds', rest'⟩, hdigits, h⟩ := Option.bind_eq_some_iff.1 h
  obtain ⟨-, -, h⟩ := Option.bind_eq_some_iff.1 h
  cases h
  exact length_digits?_lt hdigits

theorem length_fraction?_le {ds : List Nat} (h : fraction? cs = some (ds, rest)) : rest.length ≤ cs.length := by
  unfold fraction? at h
  split at h
  · have := length_digits?_lt h
    simp only [List.length_cons]
    omega
  · cases h
    exact Nat.le_refl _

theorem length_signedExponent?_lt {e : Int} (h : signedExponent? cs = some (e, rest)) : rest.length < cs.length := by
  unfold signedExponent? at h
  split at h
  all_goals
    simp only [Option.map_eq_some_iff, Prod.exists] at h
    obtain ⟨ds, rest', hdigits, h⟩ := h
    cases h
    have := length_digits?_lt hdigits
  · exact Nat.lt_succ_of_lt this
  · exact Nat.lt_succ_of_lt this
  · exact this

theorem length_exponent?_le {e : Option Int} (h : exponent? cs = some (e, rest)) : rest.length ≤ cs.length := by
  unfold exponent? at h
  split at h
  · obtain ⟨⟨e', rest'⟩, hsigned, h⟩ := Option.map_eq_some_iff.1 h
    cases h
    exact Nat.le_succ_of_le (length_signedExponent?_lt hsigned).le
  · obtain ⟨⟨e', rest'⟩, hsigned, h⟩ := Option.map_eq_some_iff.1 h
    cases h
    exact Nat.le_succ_of_le (length_signedExponent?_lt hsigned).le
  · cases h
    exact Nat.le_refl _

theorem length_number?_lt {n : Numeral} (h : number? cs = some (n, rest)) : rest.length < cs.length := by
  simp only [number?, Option.bind_eq_bind, Option.bind_eq_some_iff, Prod.exists] at h
  obtain ⟨whole, afterWhole, hwhole, fraction, afterFraction, hfraction, exponent, _, hexponent, h⟩ := h
  cases h
  have hfraction := length_fraction?_le hfraction
  have hexponent := length_exponent?_le hexponent
  have hwhole := length_whole?_lt hwhole
  split at hwhole
  · dsimp only at hwhole
    simp only [List.length_cons]
    omega
  · dsimp only at hwhole
    omega

theorem length_memberName?_lt {pieces : List Piece} (h : memberName? cs = some (pieces, rest)) :
    rest.length < cs.length := by
  unfold memberName? at h
  split at h
  · next tail hquote =>
    simp only [Option.bind_eq_bind, Option.bind_eq_some_iff, Prod.exists] at h
    obtain ⟨name, afterName, hname, h⟩ := h
    split at h
    · next hcolon =>
      cases h
      have := length_lt_of_skipBlank hquote
      have := length_string?_lt hname
      have := length_lt_of_skipBlank hcolon
      omega
    · cases h
  · cases h

end Forward

section Steps

variable {fuel : Nat} {cs r rest : List Char} {w : Written} {elements : List Written}
  {members : List (List Piece × Written)}

theorem value?_skipBlank (fuel : Nat) (cs : List Char) : value? fuel (skipBlank cs) = value? fuel cs := by
  cases fuel with
  | zero => rfl
  | succ fuel => simp only [value?, skipBlank_skipBlank]

theorem memberName?_skipBlank (cs : List Char) : memberName? (skipBlank cs) = memberName? cs := by
  simp only [memberName?, skipBlank_skipBlank]

theorem elements?_skipBlank (fuel : Nat) (cs : List Char) : elements? fuel (skipBlank cs) = elements? fuel cs := by
  cases fuel with
  | zero => rfl
  | succ fuel => simp only [elements?, value?_skipBlank]

theorem members?_skipBlank (fuel : Nat) (cs : List Char) : members? fuel (skipBlank cs) = members? fuel cs := by
  cases fuel with
  | zero => rfl
  | succ fuel => simp only [members?, memberName?_skipBlank]

/-- A closing bracket begins no value. -/
theorem elements?_bracket (fuel : Nat) (cs : List Char) : elements? fuel (']' :: cs) = none := by
  cases fuel with
  | zero => rfl
  | succ fuel => cases fuel <;> rfl

theorem members?_brace (fuel : Nat) (cs : List Char) : members? fuel ('}' :: cs) = none := by
  cases fuel <;> rfl

/-- Where no array and no object starts, one step is enough. -/
theorem value?_of_plain (harray : ∀ r, skipBlank cs ≠ '[' :: r) (hobject : ∀ r, skipBlank cs ≠ '{' :: r) :
    value? (fuel + 1) cs = value? 1 cs := by
  simp only [value?]
  split <;> simp_all

theorem value?_of_array (h : skipBlank cs = '[' :: r) : value? (fuel + 1) cs = some (w, rest) ↔
    skipBlank r = ']' :: rest ∧ .array [] = w ∨
      ∃ elements, elements? fuel r = some (elements, rest) ∧ .array elements = w := by
  rw [← elements?_skipBlank]
  simp only [value?, h]
  split
  · next hclose => simp [hclose, elements?_bracket, and_comm]
  · next hother => simp [show skipBlank r ≠ ']' :: rest from hother rest]

theorem value?_of_object (h : skipBlank cs = '{' :: r) : value? (fuel + 1) cs = some (w, rest) ↔
    skipBlank r = '}' :: rest ∧ .object [] = w ∨
      ∃ members, members? fuel r = some (members, rest) ∧ .object members = w := by
  rw [← members?_skipBlank]
  simp only [value?, h]
  split
  · next hclose => simp [hclose, members?_brace, and_comm]
  · next hother => simp [show skipBlank r ≠ '}' :: rest from hother rest]

theorem length_value?_one_lt (h : value? 1 cs = some (w, rest)) : rest.length < cs.length := by
  have hle := length_skipBlank_le cs
  simp only [value?] at h
  split at h
  · next hword =>
    cases h
    simp only [hword, List.length_cons] at hle
    omega
  · next hword =>
    cases h
    simp only [hword, List.length_cons] at hle
    omega
  · next hword =>
    cases h
    simp only [hword, List.length_cons] at hle
    omega
  · next hquote =>
    simp only [Option.map_eq_some_iff, Prod.exists] at h
    obtain ⟨pieces, r, hstring, h⟩ := h
    cases h
    have := length_string?_lt hstring
    have := length_lt_of_skipBlank hquote
    omega
  · next hbracket =>
    split at h
    · next hclose =>
      cases h
      have := length_lt_of_skipBlank hbracket
      have := length_lt_of_skipBlank hclose
      omega
    · cases h
  · next hbrace =>
    split at h
    · next hclose =>
      cases h
      have := length_lt_of_skipBlank hbrace
      have := length_lt_of_skipBlank hclose
      omega
    · cases h
  · simp only [Option.map_eq_some_iff, Prod.exists] at h
    obtain ⟨n, r, hnumber, h⟩ := h
    cases h
    have := length_number?_lt hnumber
    omega

end Steps

section Lists

variable {α : Type} {item : Nat → List Char → Option (α × List Char)}
  {read : Nat → List Char → Option (List α × List Char)} {close : Char}

/-- The reader of lists takes one item for each unit of fuel. Behind it stands a comma, with more items, or the closing
character. -/
structure TakesItems (item : Nat → List Char → Option (α × List Char))
    (read : Nat → List Char → Option (List α × List Char)) (close : Char) : Prop where
  zero : ∀ cs, read 0 cs = none
  succ : ∀ {fuel cs as rest}, read (fuel + 1) cs = some (as, rest) ↔ ∃ a r, item fuel cs = some (a, r) ∧
    (skipBlank r = close :: rest ∧ [a] = as ∨
      ∃ r', skipBlank r = ',' :: r' ∧ ∃ others, read fuel r' = some (others, rest) ∧ a :: others = as)

/-- A member with its name. -/
def member? (fuel : Nat) (cs : List Char) : Option ((List Piece × Written) × List Char) := do
  let (name, rest) ← memberName? cs
  let (w, rest) ← value? fuel rest
  some ((name, w), rest)

theorem member?_eq_some_iff {fuel : Nat} {cs rest : List Char} {m : List Piece × Written} :
    member? fuel cs = some (m, rest) ↔ ∃ r, memberName? cs = some (m.1, r) ∧ value? fuel r = some (m.2, rest) := by
  obtain ⟨name, w⟩ := m
  simp [member?, Option.bind_eq_some_iff]

theorem takesItems_elements? : TakesItems value? elements? ']' where
  zero _ := rfl
  succ {fuel cs as rest} := by
    simp only [elements?, Option.bind_eq_bind, Option.bind_eq_some_iff, Prod.exists]
    refine exists_congr fun w => exists_congr fun r => and_congr_right fun _ => ?_
    split
    · next hcomma => simp [hcomma, Option.bind_eq_some_iff]
    · next hclose => simp [hclose, and_comm]
    · next hcomma hclose => simp_all

theorem takesItems_members? : TakesItems member? members? '}' where
  zero _ := rfl
  succ {fuel cs as rest} := by
    simp only [members?, Option.bind_eq_bind, Option.bind_eq_some_iff, Prod.exists]
    constructor
    · rintro ⟨name, r, hname, w, r', hread, h⟩
      refine ⟨name, w, r', member?_eq_some_iff.2 ⟨r, hname, hread⟩, ?_⟩
      split at h
      · next r'' hcomma =>
        obtain ⟨⟨others, _⟩, hothers, h⟩ := Option.bind_eq_some_iff.1 h
        cases h
        exact .inr ⟨r'', hcomma, others, hothers, rfl⟩
      · next hclose =>
        cases h
        exact .inl ⟨hclose, rfl⟩
      · cases h
    · rintro ⟨name, w, r', hmember, hend⟩
      obtain ⟨r, hname, hread⟩ := member?_eq_some_iff.1 hmember
      refine ⟨name, r, hname, w, r', hread, ?_⟩
      rcases hend with ⟨hclose, rfl⟩ | ⟨r'', hcomma, others, hothers, rfl⟩
      · simp [hclose]
      · simp [hcomma, hothers]

end Lists

section Settled

/-- What is read with this fuel is shorter than the text, and with all fuel that fits the text it is read alike. -/
structure Settled {α : Type} (read : Nat → List Char → Option (α × List Char)) (margin fuel : Nat) : Prop where
  forward : ∀ {cs a rest}, read fuel cs = some (a, rest) → rest.length < cs.length
  steady : ∀ {cs a rest}, read fuel cs = some (a, rest) → ∀ n, 2 * cs.length + margin ≤ n → read n cs = some (a, rest)

variable {α : Type} {fuel margin : Nat}

theorem settled_of_eq_none {read : Nat → List Char → Option (α × List Char)} (h : ∀ cs, read fuel cs = none) :
    Settled read margin fuel where
  forward {cs a rest} hread := by simp [h] at hread
  steady {cs a rest} hread := by simp [h] at hread

theorem settled_of_succ {read : Nat → List Char → Option (α × List Char)} (hmargin : 0 < margin)
    (h : ∀ {cs a rest}, read fuel cs = some (a, rest) → rest.length < cs.length ∧
      ∀ n, 2 * cs.length + margin ≤ n + 1 → read (n + 1) cs = some (a, rest)) : Settled read margin fuel where
  forward hread := (h hread).1
  steady hread n hn := by
    obtain ⟨m, rfl⟩ := Nat.exists_eq_add_of_le' (show 1 ≤ n by omega)
    exact (h hread).2 m hn

theorem Settled.member? (hvalue : Settled value? 1 fuel) : Settled member? 1 fuel where
  forward h := by
    obtain ⟨r, hname, hread⟩ := member?_eq_some_iff.1 h
    exact (hvalue.forward hread).trans (length_memberName?_lt hname)
  steady h n hn := by
    obtain ⟨r, hname, hread⟩ := member?_eq_some_iff.1 h
    have hlt := length_memberName?_lt hname
    exact member?_eq_some_iff.2 ⟨r, hname, hvalue.steady hread n (by omega)⟩

theorem TakesItems.settled_succ {item : Nat → List Char → Option (α × List Char)}
    {read : Nat → List Char → Option (List α × List Char)} {close : Char} (h : TakesItems item read close)
    (hitem : Settled item 1 fuel) (hread : Settled read 2 fuel) : Settled read 2 (fuel + 1) := by
  refine settled_of_succ Nat.two_pos fun {cs as rest} hlist => ?_
  obtain ⟨a, r, ha, hend⟩ := h.succ.1 hlist
  have := hitem.forward ha
  have hsteady n (hn : 2 * cs.length + 2 ≤ n + 1) := hitem.steady ha n (by omega)
  rcases hend with ⟨hclose, has⟩ | ⟨r', hcomma, others, hothers, has⟩
  · have := length_lt_of_skipBlank hclose
    exact ⟨by omega, fun n hn => h.succ.2 ⟨a, r, hsteady n hn, .inl ⟨hclose, has⟩⟩⟩
  · have := length_lt_of_skipBlank hcomma
    have := hread.forward hothers
    refine ⟨by omega, fun n hn => h.succ.2 ⟨a, r, hsteady n hn, .inr ⟨r', hcomma, others, ?_, has⟩⟩⟩
    exact hread.steady hothers n (by omega)

theorem settled_value?_succ (helements : Settled elements? 2 fuel) (hmembers : Settled members? 2 fuel) :
    Settled value? 1 (fuel + 1) := by
  refine settled_of_succ Nat.one_pos fun {cs w rest} h => ?_
  by_cases harray : ∃ r, skipBlank cs = '[' :: r
  · obtain ⟨r, hr⟩ := harray
    have hlt := length_lt_of_skipBlank hr
    rcases (value?_of_array hr).1 h with ⟨hclose, hw⟩ | ⟨elements, hread, hw⟩
    · have := length_lt_of_skipBlank hclose
      exact ⟨by omega, fun n _ => (value?_of_array hr).2 (.inl ⟨hclose, hw⟩)⟩
    · have := helements.forward hread
      refine ⟨by omega, fun n hn => (value?_of_array hr).2 (.inr ⟨elements, ?_, hw⟩)⟩
      exact helements.steady hread n (by omega)
  · by_cases hobject : ∃ r, skipBlank cs = '{' :: r
    · obtain ⟨r, hr⟩ := hobject
      have hlt := length_lt_of_skipBlank hr
      rcases (value?_of_object hr).1 h with ⟨hclose, hw⟩ | ⟨members, hread, hw⟩
      · have := length_lt_of_skipBlank hclose
        exact ⟨by omega, fun n _ => (value?_of_object hr).2 (.inl ⟨hclose, hw⟩)⟩
      · have := hmembers.forward hread
        refine ⟨by omega, fun n hn => (value?_of_object hr).2 (.inr ⟨members, ?_, hw⟩)⟩
        exact hmembers.steady hread n (by omega)
    · rw [not_exists] at harray hobject
      rw [value?_of_plain harray hobject] at h
      exact ⟨length_value?_one_lt h, fun n _ => (value?_of_plain harray hobject).trans h⟩

/-- The three readers call each other, so they settle together. -/
theorem settled (fuel : Nat) : Settled value? 1 fuel ∧ Settled elements? 2 fuel ∧ Settled members? 2 fuel := by
  induction fuel with
  | zero =>
    exact ⟨settled_of_eq_none fun _ => rfl, settled_of_eq_none takesItems_elements?.zero,
      settled_of_eq_none takesItems_members?.zero⟩
  | succ fuel ih =>
    obtain ⟨hvalue, helements, hmembers⟩ := ih
    exact ⟨settled_value?_succ helements hmembers, takesItems_elements?.settled_succ hvalue helements,
      takesItems_members?.settled_succ hvalue.member? hmembers⟩

end Settled

end FieldSeal.Json.Reader
