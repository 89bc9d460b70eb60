import Mathlib.Data.List.Forall2
import Mathlib.Data.Nat.Digits.Defs
import FieldSeal.Numeral
import FieldSeal.Proofs.Text.Alphabets

/-!
The texts that are numerals. The grammar says which number a numeral stands for; the reader accepts exactly the
numerals of numbers within its bound.
-/

namespace FieldSeal

namespace Numeral

/-- A numeral is an optional plus sign and at least one digit, the most significant first; there may be any number
of leading zeros. -/
def Spells (radix : Nat) (text : String) (number : Nat) : Prop :=
  ∃ sign digits values, text.toList = sign ++ digits ∧ (sign = [] ∨ sign = ['+']) ∧ digits ≠ [] ∧
    List.Forall₂ (IsDigit radix) digits values ∧ Nat.ofDigits radix values.reverse = number

variable {radix bound number value : Nat} {text : String} {c : Char} {digits rest : List Char}

theorem readDigits_cons {d : Nat} (hd : digit? radix c = some d) (hbound : value * radix + d ≤ bound) :
    readDigits radix bound value (c :: rest) = readDigits radix bound (value * radix + d) rest := by
  rw [readDigits, hd]
  exact if_neg (Nat.not_lt.2 hbound)

/-- From a value within the bound the reader goes on to the number that the digits stand for behind it. -/
theorem readDigits_eq_ok_iff (hvalue : value ≤ bound) : readDigits radix bound value digits = .ok number ↔
    ∃ values, List.Forall₂ (IsDigit radix) digits values ∧
      value * radix ^ values.length + Nat.ofDigits radix values.reverse = number ∧ number ≤ bound := by
  induction digits generalizing value with
  | nil =>
    constructor
    · intro h
      obtain rfl : value = number := Except.ok.inj h
      exact ⟨[], .nil, by simp, hvalue⟩
    · rintro ⟨values, hvalues, hnumber, -⟩
      cases hvalues
      rw [← hnumber]
      simp [readDigits]
  | cons c rest ih =>
    constructor
    · intro h
      cases hd : digit? radix c with
      | none => simp [readDigits, hd] at h
      | some d =>
        by_cases hnext : bound < value * radix + d
        · simp [readDigits, hd, hnext] at h
        · rw [readDigits_cons hd (Nat.not_lt.1 hnext)] at h
          obtain ⟨values, hvalues, hnumber, hbound⟩ := (ih (Nat.not_lt.1 hnext)).1 h
          refine ⟨d :: values, .cons (digit?_eq_some_iff.1 hd) hvalues, ?_, hbound⟩
          rw [Nat.ofDigits_reverse_cons, ← hnumber, List.length_cons]
          ring
    · rintro ⟨values, hvalues, hnumber, hbound⟩
      cases hvalues with
      | @cons _ d _ values hd hvalues =>
        have hpow : 0 < radix ^ values.length := Nat.pow_pos (Nat.zero_lt_of_lt hd.1)
        have hsplit : (value * radix + d) * radix ^ values.length + Nat.ofDigits radix values.reverse = number := by
          rw [← hnumber, Nat.ofDigits_reverse_cons, List.length_cons]
          ring
        have hnext : value * radix + d ≤ bound := by
          have hle := Nat.le_mul_of_pos_right (value * radix + d) hpow
          omega
        rw [readDigits_cons (digit?_eq_some_iff.2 hd) hnext]
        exact (ih hnext).2 ⟨values, hvalues, hsplit, hbound⟩

theorem not_isDigit_plus : ¬ IsDigit radix '+' value := by
  intro h
  have hplus := digit?_eq_some_iff.2 h
  simp [digit?] at hplus

/-- Without a sign the numeral is all digits. -/
theorem read_of_toList (htext : text.toList = c :: rest) (hc : c ≠ '+') :
    read radix bound text = readDigits radix bound 0 (c :: rest) := by
  unfold read
  rw [htext]
  split
  case h_1 h => cases h
  case h_2 h => exact absurd (List.cons.inj h).1 hc
  case h_3 _ h => exact absurd (List.cons.inj h).1 hc
  case h_4 => rfl

theorem read_of_plus (htext : text.toList = '+' :: c :: rest) :
    read radix bound text = readDigits radix bound 0 (c :: rest) := by
  rw [read, htext]
  rfl

theorem readDigits_zero_eq_ok_iff : readDigits radix bound 0 digits = .ok number ↔
    (∃ values, List.Forall₂ (IsDigit radix) digits values ∧ Nat.ofDigits radix values.reverse = number) ∧
      number ≤ bound := by
  rw [readDigits_eq_ok_iff (Nat.zero_le bound)]
  simp only [Nat.zero_mul, Nat.zero_add, ← and_assoc, exists_and_right]

/-- The reader accepts the numerals of the numbers within its bound, and nothing else. -/
theorem read_eq_ok_iff : read radix bound text = .ok number ↔ Spells radix text number ∧ number ≤ bound := by
  constructor
  · intro h
    rcases htext : text.toList with _ | ⟨c, rest⟩
    · simp [read, htext] at h
    by_cases hc : c = '+'
    · subst hc
      rcases rest with _ | ⟨d, rest⟩
      · simp [read, htext] at h
      · rw [read_of_plus htext] at h
        obtain ⟨⟨values, hvalues, hnumber⟩, hbound⟩ := readDigits_zero_eq_ok_iff.1 h
        exact ⟨⟨['+'], d :: rest, values, htext, .inr rfl, nofun, hvalues, hnumber⟩, hbound⟩
    · rw [read_of_toList htext hc] at h
      obtain ⟨⟨values, hvalues, hnumber⟩, hbound⟩ := readDigits_zero_eq_ok_iff.1 h
      exact ⟨⟨[], c :: rest, values, htext, .inl rfl, nofun, hvalues, hnumber⟩, hbound⟩
  · rintro ⟨⟨sign, digits, values, htext, hsign, hdigits, hvalues, hnumber⟩, hbound⟩
    have hread := readDigits_zero_eq_ok_iff.2 ⟨⟨values, hvalues, hnumber⟩, hbound⟩
    obtain ⟨c, rest, rfl⟩ := List.exists_cons_of_ne_nil hdigits
    rcases hsign with rfl | rfl
    · have hc : c ≠ '+' := by
        rintro rfl
        cases hvalues with
        | cons hd _ => exact not_isDigit_plus hd
      rw [read_of_toList htext hc]
      exact hread
    · rw [read_of_plus htext]
      exact hread

theorem isDigit_digitChar (hradix : radix ≤ 16) (h : value < radix) : IsDigit radix (Nat.digitChar value) value := by
  have hall : ∀ n < 16, lowerDigits[n]? = some (Nat.digitChar n) := by decide
  exact ⟨h, .inl (hall value (h.trans_le hradix))⟩

theorem spells_toDigits (hone : 1 < radix) (hradix : radix ≤ 16) (n : Nat) :
    ∃ values, List.Forall₂ (IsDigit radix) (Nat.toDigits radix n) values ∧
      Nat.ofDigits radix values.reverse = n := by
  induction n using Nat.strongRecOn with
  | ind n ih =>
    by_cases hn : n < radix
    · rw [Nat.toDigits_of_lt_base hn]
      exact ⟨[n], .cons (isDigit_digitChar hradix hn) .nil, by simp⟩
    · have hpos : 0 < n := by omega
      obtain ⟨values, hvalues, hnumber⟩ := ih (n / radix) (Nat.div_lt_self hpos hone)
      have hlast : n % radix < radix := Nat.mod_lt n (Nat.zero_lt_of_lt hone)
      rw [Nat.toDigits_of_base_le hone (Nat.not_lt.1 hn)]
      refine ⟨values ++ [n % radix], List.rel_append hvalues (.cons (isDigit_digitChar hradix hlast) .nil), ?_⟩
      rw [List.reverse_append, List.reverse_singleton, List.singleton_append, Nat.ofDigits_cons, hnumber]
      exact Nat.mod_add_div n radix

theorem isDigit_unique {other : Nat} (h : IsDigit radix c value) (hother : IsDigit radix c other) : value = other :=
  Option.some.inj ((digit?_eq_some_iff.2 h).symm.trans (digit?_eq_some_iff.2 hother))

/-- Numbers with the same digits are the same. -/
theorem toDigits_injective (hone : 1 < radix) (hradix : radix ≤ 16) : Function.Injective (Nat.toDigits radix) := by
  intro m n heq
  obtain ⟨values, hvalues, rfl⟩ := spells_toDigits hone hradix m
  obtain ⟨values', hvalues', rfl⟩ := spells_toDigits hone hradix n
  rw [heq] at hvalues
  have hunique : Relator.RightUnique (IsDigit radix) := fun _ _ _ => isDigit_unique
  rw [hunique.forall₂ hvalues hvalues']

/-- A number is printed as a numeral of its own. -/
theorem spells_toString (n : Nat) : Spells 10 (toString n) n := by
  obtain ⟨values, hvalues, hnumber⟩ := spells_toDigits (by decide : 1 < 10) (by decide) n
  have htext : (toString n).toList = Nat.toDigits 10 n := by rw [Nat.toString_eq_repr, Nat.toList_repr]
  have hdigits : Nat.toDigits 10 n ≠ [] := by
    rw [Nat.toDigits_eq_if (by decide)]
    split <;> simp
  exact ⟨[], _, values, htext, .inl rfl, hdigits, hvalues, hnumber⟩

end Numeral

end FieldSeal
