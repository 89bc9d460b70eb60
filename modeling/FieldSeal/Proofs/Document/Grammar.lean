import Mathlib.Data.List.Permutation
import FieldSeal.Proofs.Document.Canonical

/-!
The values that stand for binaries. The grammar says where a value holds the two texts of a binary, and which texts
are a subtype and a payload. The reader accepts exactly what the grammar derives, and where both texts are malformed
it reports the subtype.
-/

namespace FieldSeal.Binary

section Shape

/-- The inner part is an object with the two texts under their names and nothing else, or the array of both. -/
inductive BodyHolds (payload subtype : String) : Json → Prop where
  | object {members : Fields Json}
      (hmembers : members.Perm [("base64", .string payload), ("subType", .string subtype)]) :
      BodyHolds payload subtype (.object members)
  | array : BodyHolds payload subtype (.array [.string payload, .string subtype])

/-- The value is an object with the one member `$binary`, or an array of one element. -/
inductive Holds (payload subtype : String) : Json → Prop where
  | object {body : Json} (hbody : BodyHolds payload subtype body) :
      Holds payload subtype (.object [("$binary", body)])
  | array {body : Json} (hbody : BodyHolds payload subtype body) : Holds payload subtype (.array [body])

variable {payload subtype : String} {value body : Json}

theorem bodyTexts?_eq_some_iff : bodyTexts? body = some (payload, subtype) ↔ BodyHolds payload subtype body := by
  constructor
  · intro h
    unfold bodyTexts? at h
    split at h
    · cases h
      exact .object (.refl _)
    · cases h
      exact .object (.swap _ _ _)
    · cases h
      exact .array
    · cases h
  · rintro (hmembers | _)
    · rcases List.perm_pair.1 hmembers with rfl | rfl <;> rfl
    · rfl

theorem texts?_eq_some_iff : texts? value = some (payload, subtype) ↔ Holds payload subtype value := by
  constructor
  · intro h
    unfold texts? at h
    split at h
    · exact .object (bodyTexts?_eq_some_iff.1 h)
    · exact .array (bodyTexts?_eq_some_iff.1 h)
    · cases h
  · rintro (hbody | hbody)
    · exact bodyTexts?_eq_some_iff.2 hbody
    · exact bodyTexts?_eq_some_iff.2 hbody

end Shape

/-- The value stands for the binary. -/
def Denotes (value : Json) (b : Binary) : Prop :=
  ∃ payload subtype, Holds payload subtype value ∧ Numeral.Spells 16 subtype b.subtype.toNat ∧
    Base64.IsEncoding payload.toList b.bytes

variable {payload subtype : String} {value : Json} {b : Binary}

theorem ofJson_of_holds (h : Holds payload subtype value) : ofJson value = ofTexts payload subtype := by
  rw [ofJson, texts?_eq_some_iff.2 h]

theorem ofJson_of_not_holds (h : ∀ payload subtype, ¬ Holds payload subtype value) :
    ofJson value = .error .shape := by
  cases htexts : texts? value with
  | none => rw [ofJson, htexts]
  | some texts => exact absurd (texts?_eq_some_iff.1 htexts) (h _ _)

/-- A subtype is the number of a numeral, and no two bytes have the same number. -/
theorem ofTexts_eq_ok_iff : ofTexts payload subtype = .ok b ↔
    Numeral.Spells 16 subtype b.subtype.toNat ∧ Base64.IsEncoding payload.toList b.bytes := by
  constructor
  · intro h
    unfold ofTexts at h
    cases hread : Numeral.read 16 255 subtype with
    | error why => simp [hread] at h
    | ok n =>
      cases hdecode : Base64.decode payload with
      | error why => simp [hread, hdecode] at h
      | ok bytes =>
        simp only [hread, hdecode, Except.ok.injEq] at h
        obtain ⟨hspells, hbound⟩ := Numeral.read_eq_ok_iff.1 hread
        have hnumber : (UInt8.ofNat n).toNat = n := UInt8.toNat_ofNat_of_lt' (Nat.lt_succ_of_le hbound)
        rw [← h, hnumber]
        exact ⟨hspells, Base64.decode_eq_ok_iff_isEncoding.1 hdecode⟩
  · rintro ⟨hspells, hencoding⟩
    have hread := Numeral.read_eq_ok_iff.2 ⟨hspells, Nat.le_of_lt_succ b.subtype.toNat_lt⟩
    have hdecode := Base64.decode_eq_ok_iff_isEncoding.2 hencoding
    simp only [ofTexts, hread, hdecode, UInt8.ofNat_toNat]

theorem ofTexts_of_subtype (h : ∀ n ≤ 255, ¬ Numeral.Spells 16 subtype n) :
    ∃ why, ofTexts payload subtype = .error (.subtype subtype why) := by
  cases hread : Numeral.read 16 255 subtype with
  | error why => exact ⟨why, by rw [ofTexts, hread]⟩
  | ok n =>
    obtain ⟨hspells, hbound⟩ := Numeral.read_eq_ok_iff.1 hread
    exact absurd hspells (h n hbound)

theorem ofTexts_of_payload {n : Nat} (hspells : Numeral.Spells 16 subtype n) (hbound : n ≤ 255)
    (h : ∀ bytes, ¬ Base64.IsEncoding payload.toList bytes) :
    ∃ why, ofTexts payload subtype = .error (.payload why) := by
  have hread := Numeral.read_eq_ok_iff.2 ⟨hspells, hbound⟩
  cases hdecode : Base64.decode payload with
  | error why => exact ⟨why, by simp only [ofTexts, hread, hdecode]⟩
  | ok bytes => exact absurd (Base64.decode_eq_ok_iff_isEncoding.1 hdecode) (h bytes)

/-- Two texts are never a matter of shape. -/
theorem ofTexts_ne_shape : ofTexts payload subtype ≠ .error .shape := by
  unfold ofTexts
  split
  · exact nofun
  · split <;> exact nofun

theorem ofJson_eq_ok_iff : ofJson value = .ok b ↔ Denotes value b := by
  constructor
  · intro h
    by_cases hholds : ∃ payload subtype, Holds payload subtype value
    · obtain ⟨payload, subtype, hholds⟩ := hholds
      rw [ofJson_of_holds hholds] at h
      exact ⟨payload, subtype, hholds, ofTexts_eq_ok_iff.1 h⟩
    · rw [ofJson_of_not_holds (by simpa using hholds)] at h
      cases h
  · rintro ⟨payload, subtype, hholds, htexts⟩
    rw [ofJson_of_holds hholds]
    exact ofTexts_eq_ok_iff.2 htexts

/-- How a value is read, in terms of the grammar alone. -/
structure ReadsGrammar (value : Json) : Prop where
  accepted : ∀ b, ofJson value = .ok b ↔ Denotes value b
  optional : ∀ b, ofJson? value = some b ↔ Denotes value b
  shape : ofJson value = .error .shape ↔ ∀ payload subtype, ¬ Holds payload subtype value
  /-- A malformed subtype is what is reported, whatever the payload is. -/
  subtypeFirst : ∀ payload subtype, Holds payload subtype value →
    (∀ n ≤ 255, ¬ Numeral.Spells 16 subtype n) → ∃ why, ofJson value = .error (.subtype subtype why)
  payloadNext : ∀ payload subtype n, Holds payload subtype value → Numeral.Spells 16 subtype n → n ≤ 255 →
    (∀ bytes, ¬ Base64.IsEncoding payload.toList bytes) → ∃ why, ofJson value = .error (.payload why)

/-- The reader accepts exactly the values of the grammar, for each the one binary it stands for. -/
theorem ofJson_readsGrammar (value : Json) : ReadsGrammar value where
  accepted _ := ofJson_eq_ok_iff
  optional b := by
    rw [← ofJson_eq_ok_iff, ofJson?]
    cases ofJson value <;> simp [Except.toOption]
  shape := by
    constructor
    · intro h payload subtype hholds
      rw [ofJson_of_holds hholds] at h
      exact ofTexts_ne_shape h
    · exact ofJson_of_not_holds
  subtypeFirst payload subtype hholds hmalformed := by
    rw [ofJson_of_holds hholds]
    exact ofTexts_of_subtype hmalformed
  payloadNext payload subtype n hholds hspells hbound hmalformed := by
    rw [ofJson_of_holds hholds]
    exact ofTexts_of_payload hspells hbound hmalformed

example : ofJson? (.array [.object [("base64", .string "AQI="), ("subType", .string "+00fF")]]) =
    some ⟨255, [1, 2]⟩ := by decide

end FieldSeal.Binary
