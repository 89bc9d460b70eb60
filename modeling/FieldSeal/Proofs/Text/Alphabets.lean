import FieldSeal.Base64

/-!
The alphabets of numerals and of base64, as tables. A character is read as the value at whose place the table has it.
-/

namespace FieldSeal

/-- Consecutive values for consecutive characters. -/
theorem eq_of_range {α : Type} (place : Nat → α) (shown : Char → α) (start : Nat) {first last c : Char}
    (hrange : ∀ n ≤ last.toNat - first.toNat, place (n + start) = shown (Char.ofNat (first.toNat + n)))
    (h : first ≤ c ∧ c ≤ last) : place (c.toNat - first.toNat + start) = shown c := by
  have hfirst : first.toNat ≤ c.toNat := h.1
  have hlast : c.toNat ≤ last.toNat := h.2
  rw [hrange _ (Nat.sub_le_sub_right hlast _), Nat.add_sub_cancel' hfirst, Char.ofNat_toNat]

section Digits

/-- The digits of every radix up to thirty-six, in the order of their values. -/
def lowerDigits : List Char :=
  "0123456789abcdefghijklmnopqrstuvwxyz".toList

def upperDigits : List Char :=
  "0123456789ABCDEFGHIJKLMNOPQRSTUVWXYZ".toList

/-- The character is the digit of a value below the radix, in either case. -/
def IsDigit (radix : Nat) (c : Char) (value : Nat) : Prop :=
  value < radix ∧ (lowerDigits[value]? = some c ∨ upperDigits[value]? = some c)

variable {radix value : Nat} {c : Char}

theorem isDigit_of_digit? (h : digit? radix c = some value) : IsDigit radix c value := by
  unfold digit? at h
  obtain ⟨hvalue, hradix⟩ := Option.filter_eq_some_iff.1 h
  refine ⟨of_decide_eq_true hradix, ?_⟩
  split at hvalue
  · next hdecimal =>
    have hdigit := eq_of_range (lowerDigits[·]?) some 0 (by decide) hdecimal
    rw [← Option.some.inj hvalue]
    exact .inl hdigit
  · split at hvalue
    · next hlower =>
      have hdigit := eq_of_range (lowerDigits[·]?) some 10 (by decide) hlower
      rw [← Option.some.inj hvalue]
      exact .inl hdigit
    · split at hvalue
      · next hupper =>
        have hdigit := eq_of_range (upperDigits[·]?) some 10 (by decide) hupper
        rw [← Option.some.inj hvalue]
        exact .inr hdigit
      · cases hvalue

/-- A digit of one radix is a digit of every radix that its value is below. -/
theorem digit?_of_lt {other : Nat} (h : digit? other c = some value) (hlt : value < radix) :
    digit? radix c = some value := by
  unfold digit? at *
  obtain ⟨hvalue, -⟩ := Option.filter_eq_some_iff.1 h
  exact Option.filter_eq_some_iff.2 ⟨hvalue, decide_eq_true hlt⟩

theorem digit?_of_getElem? {digits : List Char}
    (hdigits : ∀ n : Fin digits.length, digit? 36 digits[n] = some n.val) (h : digits[value]? = some c)
    (hlt : value < radix) : digit? radix c = some value := by
  obtain ⟨hlength, rfl⟩ := List.getElem?_eq_some_iff.1 h
  exact digit?_of_lt (hdigits ⟨value, hlength⟩) hlt

theorem digit?_eq_some_iff : digit? radix c = some value ↔ IsDigit radix c value := by
  constructor
  · exact isDigit_of_digit?
  · rintro ⟨hlt, hlower | hupper⟩
    · exact digit?_of_getElem? (by decide) hlower hlt
    · exact digit?_of_getElem? (by decide) hupper hlt

end Digits

namespace Base64

/-- The standard alphabet. -/
def symbols : List Char :=
  "ABCDEFGHIJKLMNOPQRSTUVWXYZabcdefghijklmnopqrstuvwxyz0123456789+/".toList

variable {n : Nat} {c : Char}

theorem getElem?_symbols (h : n < 64) : symbols[n]? = some (symbol n) := by
  have hall : ∀ n < 64, symbols[n]? = some (symbol n) := by decide
  exact hall n h

theorem value?_symbol (h : n < 64) : value? (symbol n) = some n := by
  have hall : ∀ n < 64, value? (symbol n) = some n := by decide
  exact hall n h

theorem symbol_ne_pad (h : n < 64) : symbol n ≠ '=' := by
  have hall : ∀ n < 64, symbol n ≠ '=' := by decide
  exact hall n h

theorem getElem?_of_value? (h : value? c = some n) : symbols[n]? = some c := by
  unfold value? at h
  split at h
  · next hupper =>
    rw [← Option.some.inj h]
    exact eq_of_range (symbols[·]?) some 0 (by decide) hupper
  · split at h
    · next hlower =>
      rw [← Option.some.inj h]
      exact eq_of_range (symbols[·]?) some 26 (by decide) hlower
    · split at h
      · next hdecimal =>
        rw [← Option.some.inj h]
        exact eq_of_range (symbols[·]?) some 52 (by decide) hdecimal
      · split at h
        · next hplus =>
          rw [← Option.some.inj h, hplus]
          rfl
        · split at h
          · next hslash =>
            rw [← Option.some.inj h, hslash]
            rfl
          · cases h

/-- Only the symbol of a value is read as that value. -/
theorem eq_symbol_of_value? (h : value? c = some n) : n < 64 ∧ c = symbol n := by
  have htable := getElem?_of_value? h
  have hlt : n < 64 := (List.getElem?_eq_some_iff.1 htable).1
  rw [getElem?_symbols hlt] at htable
  exact ⟨hlt, (Option.some.inj htable).symm⟩

end Base64

end FieldSeal
