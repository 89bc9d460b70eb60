import FieldSeal.Document.Envelope
import FieldSeal.Proofs.Text.Base64
import FieldSeal.Proofs.Text.Numerals

/-!
The canonical form of a binary reads back as that binary: its payload text decodes to its bytes, and its two
hexadecimal digits to its subtype. What is read from an envelope is the value of its member, however it is spelled.
-/

namespace FieldSeal

namespace Bytes

theorem isDigit_hexDigit {n : Nat} (h : n < 16) : IsDigit 16 (hexDigit n) n := by
  have hall : ∀ n < 16, lowerDigits[n]? = some (hexDigit n) := by decide
  exact ⟨h, .inl (hall n h)⟩

theorem toList_hex (b : UInt8) : (hex [b]).toList = [hexDigit (b.toNat / 16), hexDigit (b.toNat % 16)] :=
  String.toList_ofList

/-- Two digits are a numeral of the byte they were written for. -/
theorem spells_hex (b : UInt8) : Numeral.Spells 16 (hex [b]) b.toNat := by
  have hb := b.toNat_lt
  refine ⟨[], _, [b.toNat / 16, b.toNat % 16], toList_hex b, .inl rfl, List.cons_ne_nil _ _, ?_, ?_⟩
  · exact .cons (isDigit_hexDigit (by omega)) (.cons (isDigit_hexDigit (by omega)) .nil)
  · simp [Nat.ofDigits_cons]
    omega

theorem read_hex (b : UInt8) : Numeral.read 16 255 (hex [b]) = .ok b.toNat :=
  Numeral.read_eq_ok_iff.2 ⟨spells_hex b, Nat.le_of_lt_succ b.toNat_lt⟩

end Bytes

namespace Binary

theorem ofTexts_canonical (b : Binary) : ofTexts (Base64.encode b.bytes) (Bytes.hex [b.subtype]) = .ok b := by
  simp only [ofTexts, Bytes.read_hex, Base64.decode_encode, UInt8.ofNat_toNat]

theorem ofJson_toJson (b : Binary) : ofJson b.toJson = .ok b :=
  ofTexts_canonical b

theorem ofJson?_toJson (b : Binary) : ofJson? b.toJson = some b := by
  rw [ofJson?, ofJson_toJson]
  rfl

end Binary

namespace Envelope

variable {document : Document}

/-- The binary that a document holds. Other members do not matter, nor how the binary is spelled. -/
def binary? (document : Document) : Option Binary :=
  (Fields.find? document "v").bind Binary.ofJson?

theorem unwrap_eq_ok_iff {value : Json} : unwrap document = .ok value ↔ Fields.find? document "v" = some value := by
  unfold unwrap member
  cases Fields.find? document "v" <;> simp

theorem unwrap_error {e : ClientError} (h : unwrap document = .error e) : ∃ reason, e = .invalidOutput reason := by
  unfold unwrap at h
  split at h
  · cases h
  · cases h
    exact ⟨_, rfl⟩

theorem unwrapBinary_eq (document : Document) : unwrapBinary document = unwrap document >>= fun value =>
    match Binary.ofJson? value with
    | some b => .ok b
    | none => .error (.invalidOutput "\"v\" is not a binary value") := rfl

theorem unwrapBinary_eq_ok_iff {b : Binary} : unwrapBinary document = .ok b ↔ binary? document = some b := by
  rw [unwrapBinary_eq, binary?]
  cases hunwrap : unwrap document with
  | error e =>
    have hmissing : Fields.find? document "v" = none := by
      cases hvalue : Fields.find? document "v" with
      | none => rfl
      | some value => simp [unwrap_eq_ok_iff.2 hvalue] at hunwrap
    simp [hmissing, bind, Except.bind]
  | ok value =>
    rw [unwrap_eq_ok_iff.1 hunwrap, Option.bind_some]
    cases hb : Binary.ofJson? value <;> simp [hb, bind, Except.bind]

theorem unwrapBinary_error {e : ClientError} (h : unwrapBinary document = .error e) :
    ∃ reason, e = .invalidOutput reason := by
  rw [unwrapBinary_eq] at h
  cases hunwrap : unwrap document with
  | error e' =>
    rw [hunwrap] at h
    cases h
    exact unwrap_error hunwrap
  | ok value =>
    rw [hunwrap] at h
    cases hb : Binary.ofJson? value with
    | some b => simp [hb, bind, Except.bind] at h
    | none =>
      simp only [hb, bind, Except.bind, Except.error.injEq] at h
      exact ⟨_, h.symm⟩

end Envelope

end FieldSeal
