import FieldSeal.Kms.Address
import FieldSeal.Proofs.Text.Numerals

/-!
The texts that are addresses. The grammar tells hosts in brackets, hosts with a port and hosts that stand alone apart;
the parser accepts exactly these texts, and cuts them where the grammar does.
-/

namespace FieldSeal

namespace Address

/-- The text of a port: a numeral with an optional plus sign, of a number of sixteen bits. -/
def IsPort (text : List Char) (port : Nat) : Prop :=
  Numeral.Spells 10 (String.ofList text) port ∧ port ≤ 65535

/-- The grammar of addresses. A host in brackets is free of closing brackets, and one before a port is free of colons;
a text with more colons than one is a host as a whole. -/
inductive Denotes : List Char → Address → Prop where
  | bracketed {host : List Char} (hhost : host ≠ []) (hfree : ']' ∉ host) :
      Denotes ('[' :: (host ++ [']'])) ⟨String.ofList host, 443⟩
  | bracketedPort {host digits : List Char} {port : Nat} (hhost : host ≠ []) (hfree : ']' ∉ host)
      (hport : IsPort digits port) : Denotes ('[' :: (host ++ ']' :: ':' :: digits)) ⟨String.ofList host, port⟩
  | alone {host : List Char} (hhost : host ≠ []) (hbracket : host.head? ≠ some '[') (hfree : ':' ∉ host) :
      Denotes host ⟨String.ofList host, 443⟩
  | withPort {host digits : List Char} {port : Nat} (hhost : host ≠ []) (hbracket : host.head? ≠ some '[')
      (hfree : ':' ∉ host) (hport : IsPort digits port) :
      Denotes (host ++ ':' :: digits) ⟨String.ofList host, port⟩
  | manyColons {host : List Char} (hbracket : host.head? ≠ some '[') (hcolons : 2 ≤ host.count ':') :
      Denotes host ⟨String.ofList host, 443⟩

variable {text host digits rest : List Char} {port : Nat} {address : Address}

theorem port?_eq_some_iff : port? text = some port ↔ IsPort text port := by
  rw [port?, IsPort, ← Numeral.read_eq_ok_iff]
  cases Numeral.read 10 65535 (String.ofList text) <;> simp [Except.toOption]

theorem colon_not_mem {values : List Nat} (h : List.Forall₂ (IsDigit 10) digits values) : ':' ∉ digits := by
  induction h with
  | nil => exact List.not_mem_nil
  | cons hdigit _ ih =>
    rw [List.mem_cons, not_or]
    refine ⟨?_, ih⟩
    rintro rfl
    have hread := digit?_eq_some_iff.2 hdigit
    simp [digit?] at hread

/-- A port has no colon in it. -/
theorem IsPort.free (h : IsPort text port) : ':' ∉ text := by
  obtain ⟨⟨sign, digits, values, htext, hsign, -, hvalues, -⟩, -⟩ := h
  rw [String.toList_ofList] at htext
  rw [htext, List.mem_append, not_or]
  refine ⟨?_, colon_not_mem hvalues⟩
  rcases hsign with rfl | rfl <;> decide

theorem isPort_toString (h : port ≤ 65535) : IsPort (toString port).toList port := by
  refine ⟨?_, h⟩
  rw [String.ofList_toList]
  exact Numeral.spells_toString port

section Plain

theorem denotes_of_parsePlain? (hne : text ≠ []) (hbracket : text.head? ≠ some '[')
    (h : parsePlain? text = some address) : Denotes text address := by
  unfold parsePlain? at h
  split at h
  · next hcut =>
    cases h
    exact .alone hne hbracket (Text.cutChars?_eq_none_iff.1 hcut)
  · next host after hcut =>
    obtain ⟨rfl, hfree⟩ := Text.cutChars?_eq_some_iff.1 hcut
    split at h
    · next hcolon =>
      cases h
      have hpos : 0 < after.count ':' := List.count_pos_iff.2 hcolon
      refine .manyColons hbracket ?_
      rw [List.count_append, List.count_cons_self]
      omega
    · split at h
      · cases h
      · next hhost =>
        obtain ⟨port, hport, rfl⟩ := Option.map_eq_some_iff.1 h
        obtain ⟨c, rest, rfl⟩ := List.exists_cons_of_ne_nil hhost
        exact .withPort hhost hbracket hfree (port?_eq_some_iff.1 hport)

theorem parsePlain?_of_free (hfree : ':' ∉ text) : parsePlain? text = some ⟨String.ofList text, 443⟩ := by
  rw [parsePlain?, Text.cutChars?_eq_none_iff.2 hfree]
  rfl

theorem parsePlain?_of_port (hhost : host ≠ []) (hfree : ':' ∉ host) (hport : IsPort digits port) :
    parsePlain? (host ++ ':' :: digits) = some ⟨String.ofList host, port⟩ := by
  rw [parsePlain?, Text.cutChars?_eq_some_iff.2 ⟨rfl, hfree⟩]
  simp only [if_neg hport.free, if_neg hhost, port?_eq_some_iff.2 hport, Option.map_some]

theorem parsePlain?_of_colons (hcolons : 2 ≤ text.count ':') :
    parsePlain? text = some ⟨String.ofList text, 443⟩ := by
  unfold parsePlain?
  split
  · rfl
  · next host after hcut =>
    -- only one of the colons is before the cut or at it
    obtain ⟨rfl, hfree⟩ := Text.cutChars?_eq_some_iff.1 hcut
    rw [List.count_append, List.count_cons_self, List.count_eq_zero.2 hfree] at hcolons
    rw [if_pos (List.count_pos_iff.1 (by omega))]
    rfl

end Plain

section Bracketed

theorem portAfterBracket?_eq_some_iff : portAfterBracket? rest = some port ↔
    (rest = [] ∧ port = 443) ∨ ∃ digits, rest = ':' :: digits ∧ IsPort digits port := by
  unfold portAfterBracket?
  split
  · simp [defaultPort, eq_comm]
  · simp [port?_eq_some_iff]
  · next hnil hcolon =>
    simp only [reduceCtorEq, false_iff, not_or, not_and, not_exists]
    exact ⟨fun hrest => absurd hrest hnil, fun digits hrest => absurd hrest (hcolon digits)⟩

/-- A bracketed text is cut at its first closing bracket. -/
theorem parseBracketed?_eq_some_iff : parseBracketed? text = some address ↔
    ∃ host after port, text = host ++ ']' :: after ∧ ']' ∉ host ∧ host ≠ [] ∧ portAfterBracket? after = some port ∧
      address = ⟨String.ofList host, port⟩ := by
  constructor
  · intro h
    obtain ⟨⟨host, after⟩, hcut, h⟩ := Option.bind_eq_some_iff.1 h
    obtain ⟨_, hhost, h⟩ := Option.bind_eq_some_iff.1 h
    obtain ⟨port, hport, h⟩ := Option.bind_eq_some_iff.1 h
    obtain ⟨htext, hfree⟩ := Text.cutChars?_eq_some_iff.1 hcut
    have hne : host ≠ [] := by
      rintro rfl
      cases hhost
    exact ⟨host, after, port, htext, hfree, hne, hport, (Option.some.inj h).symm⟩
  · rintro ⟨host, after, port, htext, hfree, hhost, hport, rfl⟩
    unfold parseBracketed?
    rw [Text.cutChars?_eq_some_iff.2 ⟨htext, hfree⟩]
    simp [hhost, hport]

theorem parseBracketed?_eq_some_iff_denotes : parseBracketed? rest = some address ↔ Denotes ('[' :: rest) address := by
  rw [parseBracketed?_eq_some_iff]
  constructor
  · rintro ⟨host, after, port, rfl, hfree, hhost, hport, rfl⟩
    rcases portAfterBracket?_eq_some_iff.1 hport with ⟨rfl, rfl⟩ | ⟨digits, rfl, hdigits⟩
    · exact .bracketed hhost hfree
    · exact .bracketedPort hhost hfree hdigits
  · intro h
    generalize htext : '[' :: rest = text at h
    cases h with
    | @bracketed host hhost hfree =>
      obtain ⟨-, rfl⟩ := List.cons.inj htext
      exact ⟨host, [], 443, rfl, hfree, hhost, rfl, rfl⟩
    | @bracketedPort host digits port hhost hfree hport =>
      obtain ⟨-, rfl⟩ := List.cons.inj htext
      exact ⟨host, _, port, rfl, hfree, hhost, portAfterBracket?_eq_some_iff.2 (.inr ⟨digits, rfl, hport⟩), rfl⟩
    -- the forms without brackets do not begin with one
    | alone hhost hbracket hfree => exact absurd (by rw [← htext]; rfl) hbracket
    | withPort hhost hbracket hfree hport =>
      obtain ⟨c, host, rfl⟩ := List.exists_cons_of_ne_nil hhost
      obtain ⟨rfl, -⟩ := List.cons.inj htext
      exact absurd rfl hbracket
    | manyColons hbracket hcolons => exact absurd (by rw [← htext]; rfl) hbracket

end Bracketed

theorem parsePlain?_eq_some_iff (hne : text ≠ []) (hbracket : text.head? ≠ some '[') :
    parsePlain? text = some address ↔ Denotes text address := by
  refine ⟨denotes_of_parsePlain? hne hbracket, fun h => ?_⟩
  cases h with
  | bracketed hhost hfree => exact absurd rfl hbracket
  | bracketedPort hhost hfree hport => exact absurd rfl hbracket
  | alone hhost _ hfree => exact parsePlain?_of_free hfree
  | withPort hhost _ hfree hport => exact parsePlain?_of_port hhost hfree hport
  | manyColons _ hcolons => exact parsePlain?_of_colons hcolons

theorem not_denotes_nil : ¬ Denotes [] address := by
  intro h
  generalize htext : [] = text at h
  cases h with
  | bracketed hhost hfree => cases htext
  | bracketedPort hhost hfree hport => cases htext
  | alone hhost hbracket hfree => exact hhost htext.symm
  | withPort hhost hbracket hfree hport => simp at htext
  | manyColons hbracket hcolons => simp [← htext] at hcolons

theorem parse?_eq_some_iff {text : String} : parse? text = some address ↔ Denotes text.toList address := by
  unfold parse?
  split
  case h_1 htext => simp [htext, not_denotes_nil]
  case h_2 rest htext => rw [htext, parseBracketed?_eq_some_iff_denotes]
  case h_3 chars hne hbracket =>
    refine parsePlain?_eq_some_iff hne ?_
    intro hfirst
    obtain ⟨rest, hrest⟩ := List.head?_eq_some_iff.1 hfirst
    exact hbracket rest hrest

theorem parse_eq_ok_iff {text : String} : parse text = .ok address ↔ Denotes text.toList address := by
  rw [← parse?_eq_some_iff, parse]
  cases parse? text <;> simp

theorem parse_eq_error_iff {text : String} {e : KmsError} :
    parse text = .error e ↔ e = .invalidHost text ∧ ∀ address, ¬ Denotes text.toList address := by
  simp only [← parse?_eq_some_iff, parse]
  cases parse? text <;> simp [eq_comm]

/-- Addresses are read by their grammar and refused with the text that is none. A host with a port, in brackets or not,
is read back from the text that they make. -/
structure ReadsGrammar : Prop where
  accepts : ∀ text address, parse text = .ok address ↔ Denotes text.toList address
  refuses : ∀ text e, parse text = .error e ↔ e = .invalidHost text ∧ ∀ address, ¬ Denotes text.toList address
  withPort : ∀ (host : String) port, port ≤ 65535 → host ≠ "" → host.toList.head? ≠ some '[' → ':' ∉ host.toList →
    parse (host ++ ":" ++ toString port) = .ok ⟨host, port⟩
  bracketedPort : ∀ (host : String) port, port ≤ 65535 → host ≠ "" → ']' ∉ host.toList →
    parse ("[" ++ host ++ "]:" ++ toString port) = .ok ⟨host, port⟩

theorem parse_readsGrammar : ReadsGrammar where
  accepts _ _ := parse_eq_ok_iff
  refuses _ _ := parse_eq_error_iff
  withPort host port hport hhost hbracket hfree := by
    have hdenotes : Denotes (host.toList ++ ':' :: (toString port).toList) ⟨String.ofList host.toList, port⟩ :=
      .withPort (mt String.toList_eq_nil_iff.1 hhost) hbracket hfree (isPort_toString hport)
    rw [String.ofList_toList] at hdenotes
    refine parse_eq_ok_iff.2 ?_
    rw [String.toList_append, String.toList_append, List.append_assoc]
    exact hdenotes
  bracketedPort host port hport hhost hfree := by
    have hdenotes : Denotes ('[' :: (host.toList ++ ']' :: ':' :: (toString port).toList))
        ⟨String.ofList host.toList, port⟩ :=
      .bracketedPort (mt String.toList_eq_nil_iff.1 hhost) hfree (isPort_toString hport)
    rw [String.ofList_toList] at hdenotes
    refine parse_eq_ok_iff.2 ?_
    rw [String.toList_append, String.toList_append, String.toList_append, List.append_assoc]
    exact hdenotes

end Address

end FieldSeal
