import FieldSeal.Proofs.Text.Numerals
import FieldSeal.Text.Quoted

/-!
A quoted text tells where it ends, and what was quoted: no two texts look alike in quotes, whatever stands behind them.
-/

namespace FieldSeal.Text

/-- A rendering can be split off the front of any longer text. -/
def PrefixFree {α : Type} (render : α → List Char) : Prop :=
  ∀ a b rest rest', render a ++ rest = render b ++ rest' → a = b ∧ rest = rest'

/-- One after the other, up to a character that none begins with. -/
theorem PrefixFree.flatMap {α : Type} {render : α → List Char} {stop : Char} (h : PrefixFree render)
    (hstop : ∀ a rest rest', render a ++ rest ≠ stop :: rest') :
    PrefixFree fun items : List α => items.flatMap render ++ [stop] := by
  intro items items' rest rest' heq
  simp only [List.append_assoc, List.singleton_append] at heq
  induction items generalizing items' with
  | nil =>
    cases items' with
    | nil => exact ⟨rfl, (List.cons.inj heq).2⟩
    | cons b items' =>
      rw [List.flatMap_cons, List.append_assoc] at heq
      exact absurd heq.symm (hstop b _ _)
  | cons a items ih =>
    cases items' with
    | nil =>
      rw [List.flatMap_cons, List.append_assoc] at heq
      exact absurd heq (hstop a _ _)
    | cons b items' =>
      rw [List.flatMap_cons, List.flatMap_cons, List.append_assoc, List.append_assoc] at heq
      obtain ⟨rfl, hnext⟩ := h _ _ _ _ heq
      obtain ⟨rfl, hrest⟩ := ih items' hnext
      exact ⟨rfl, hrest⟩

/-- The characters with a letter of their own behind the backslash. -/
def letters : List (Char × Char) :=
  [('"', '"'), ('\\', '\\'), ('\t', 't'), ('\r', 'r'), ('\n', 'n'), ('\x00', '0')]

/-- A character stands for itself, or for it stands a backslash with a letter or with a number in braces. -/
inductive Escaped (c : Char) : List Char → Prop
  | plain (hquote : c ≠ '"') (hslash : c ≠ '\\') : Escaped c [c]
  | letter {l : Char} (h : (c, l) ∈ letters) : Escaped c ['\\', l]
  | number : Escaped c ('\\' :: 'u' :: '\x7b' :: (Nat.toDigits 16 c.toNat ++ ['\x7d']))

variable {c d : Char} {shown shown' rest rest' : List Char}

theorem escaped_escape (c : Char) : Escaped c (escape c) := by
  unfold escape
  split_ifs with hquote hslash htab hreturn hline hnul hhidden
  · exact .letter (by simp [letters, hquote])
  · exact .letter (by simp [letters, hslash])
  · exact .letter (by simp [letters, htab])
  · exact .letter (by simp [letters, hreturn])
  · exact .letter (by simp [letters, hline])
  · exact .letter (by simp [letters, hnul])
  · exact .number
  · exact .plain hquote hslash

theorem letter_injective {l : Char} (hc : (c, l) ∈ letters) (hd : (d, l) ∈ letters) : c = d := by
  have hall : ∀ p ∈ letters, ∀ q ∈ letters, p.2 = q.2 → p.1 = q.1 := by decide
  exact hall _ hc _ hd rfl

theorem letter_ne_u {l : Char} (h : (c, l) ∈ letters) : l ≠ 'u' := by
  have hall : ∀ p ∈ letters, p.2 ≠ 'u' := by decide
  exact hall _ h

theorem not_mem_toDigits (n : Nat) : '\x7d' ∉ Nat.toDigits 16 n := by
  intro hmem
  obtain ⟨values, hvalues, -⟩ := Numeral.spells_toDigits (by decide : 1 < 16) (by decide) n
  obtain ⟨i, hi, hbrace⟩ := List.getElem_of_mem hmem
  obtain ⟨hlength, hdigits⟩ := List.forall₂_iff_get.1 hvalues
  have hdigit := digit?_eq_some_iff.2 (hdigits i hi (hlength ▸ hi))
  rw [List.get_eq_getElem, hbrace] at hdigit
  simp [digit?] at hdigit

/-- What stands before the first brace is the same when the whole is. -/
theorem eq_of_append_brace {digits digits' : List Char} (hdigits : '\x7d' ∉ digits) (hdigits' : '\x7d' ∉ digits')
    (h : digits ++ '\x7d' :: rest = digits' ++ '\x7d' :: rest') : digits = digits' ∧ rest = rest' := by
  rcases List.append_eq_append_iff.1 h with ⟨more, hmore, hrest⟩ | ⟨more, hmore, hrest⟩
  · cases more with
    | nil => exact ⟨by simpa using hmore.symm, (List.cons.inj hrest).2⟩
    | cons brace more =>
      obtain ⟨rfl, -⟩ := List.cons.inj hrest
      exact absurd (hmore ▸ List.mem_append_right _ List.mem_cons_self) hdigits'
  · cases more with
    | nil => exact ⟨by simpa using hmore, (List.cons.inj hrest).2.symm⟩
    | cons brace more =>
      obtain ⟨rfl, -⟩ := List.cons.inj hrest
      exact absurd (hmore ▸ List.mem_append_right _ List.mem_cons_self) hdigits

theorem Escaped.unique (hc : Escaped c shown) (hd : Escaped d shown') (h : shown ++ rest = shown' ++ rest') :
    c = d ∧ rest = rest' := by
  cases hc with
  | plain _ hslash =>
    cases hd with
    | plain => exact List.cons.inj h
    | letter => exact absurd (List.cons.inj h).1 hslash
    | number => exact absurd (List.cons.inj h).1 hslash
  | letter hc =>
    cases hd with
    | plain _ hslash => exact absurd (List.cons.inj h).1.symm hslash
    | letter hd =>
      obtain ⟨rfl, hrest⟩ := List.cons.inj (List.cons.inj h).2
      exact ⟨letter_injective hc hd, hrest⟩
    | number => exact absurd (List.cons.inj (List.cons.inj h).2).1 (letter_ne_u hc)
  | number =>
    cases hd with
    | plain _ hslash => exact absurd (List.cons.inj h).1.symm hslash
    | letter hd => exact absurd (List.cons.inj (List.cons.inj h).2).1.symm (letter_ne_u hd)
    | number =>
      simp only [List.cons_append, List.append_assoc, List.nil_append, List.cons.injEq, true_and] at h
      obtain ⟨hdigits, hrest⟩ := eq_of_append_brace (not_mem_toDigits _) (not_mem_toDigits _) h
      exact ⟨Char.toNat_inj.1 (Numeral.toDigits_injective (by decide) (by decide) hdigits), hrest⟩

/-- No character is shown as something that begins with the closing quote. -/
theorem Escaped.ne_quote (h : Escaped c shown) : shown ++ rest ≠ '"' :: rest' := by
  intro heq
  cases h with
  | plain hquote => exact hquote (List.cons.inj heq).1
  | letter => cases heq
  | number => cases heq

theorem escape_prefixFree : PrefixFree escape :=
  fun c d _ _ h => (escaped_escape c).unique (escaped_escape d) h

theorem toList_quoted (text : String) : (quoted text).toList = '"' :: (text.toList.flatMap escape ++ ['"']) := by
  rw [quoted, String.toList_ofList]
  rfl

/-- A quoted text tells what was quoted. -/
theorem quoted_prefixFree : PrefixFree fun text => (quoted text).toList := by
  intro text text' rest rest' h
  simp only [toList_quoted, List.cons_append, List.cons.injEq, true_and] at h
  have hstop (c : Char) (rest rest' : List Char) : escape c ++ rest ≠ '"' :: rest' := (escaped_escape c).ne_quote
  obtain ⟨htext, hrest⟩ := escape_prefixFree.flatMap hstop _ _ _ _ h
  exact ⟨String.toList_inj.1 htext, hrest⟩

example : quoted "aws:\"a\"" = "\"aws:\\\"a\\\"\"" := by
  decide +kernel

end FieldSeal.Text
