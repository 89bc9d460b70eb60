import FieldSeal.Proofs.Document.Grammar

/-!
Writing binaries again after they were read. All writers give one value, which reads back as the binary. A value that
was read comes out as it went in just if it was canonical, and in any case its payload text stays.
-/

namespace FieldSeal

/-- The text is two hexadecimal digits in lower case. -/
def IsLowerHexPair (text : String) : Prop :=
  ∃ high low, text.toList = [high, low] ∧ high ∈ lowerDigits.take 16 ∧ low ∈ lowerDigits.take 16

theorem mem_lowerDigits_iff {c : Char} : c ∈ lowerDigits.take 16 ↔ ∃ n < 16, hexDigit n = c := by
  have hdigits : lowerDigits.take 16 = (List.range 16).map hexDigit := by decide
  rw [hdigits, List.mem_map]
  simp only [List.mem_range]

theorem isLowerHexPair_hex (b : UInt8) : IsLowerHexPair (Bytes.hex [b]) := by
  have hb := b.toNat_lt
  refine ⟨_, _, Bytes.toList_hex b, ?_, ?_⟩
  · exact mem_lowerDigits_iff.2 ⟨_, by omega, rfl⟩
  · exact mem_lowerDigits_iff.2 ⟨_, by omega, rfl⟩

/-- Two digits in lower case are those of some byte. -/
theorem IsLowerHexPair.exists_byte {text : String} (h : IsLowerHexPair text) : ∃ b, text = Bytes.hex [b] := by
  obtain ⟨high, low, htext, hhigh, hlow⟩ := h
  obtain ⟨m, hm, rfl⟩ := mem_lowerDigits_iff.1 hhigh
  obtain ⟨n, hn, rfl⟩ := mem_lowerDigits_iff.1 hlow
  have hbyte : (UInt8.ofNat (16 * m + n)).toNat = 16 * m + n := UInt8.toNat_ofNat_of_lt' (by show _ < 256; omega)
  have hdiv : (16 * m + n) / 16 = m := by omega
  have hmod : (16 * m + n) % 16 = n := by omega
  refine ⟨UInt8.ofNat (16 * m + n), String.toList_injective ?_⟩
  rw [htext, Bytes.toList_hex, hbyte, hdiv, hmod]

/-- Of the numerals of a byte the written one is the pair of digits in lower case. -/
theorem hex_eq_iff {text : String} {b : UInt8} (h : Numeral.Spells 16 text b.toNat) :
    Bytes.hex [b] = text ↔ IsLowerHexPair text := by
  constructor
  · rintro rfl
    exact isLowerHexPair_hex b
  · intro hpair
    obtain ⟨other, rfl⟩ := hpair.exists_byte
    have hread := Numeral.read_eq_ok_iff.2 ⟨h, Nat.le_of_lt_succ b.toNat_lt⟩
    rw [Bytes.read_hex, Except.ok.injEq] at hread
    rw [UInt8.toNat_inj.1 hread]

namespace Binary

/-- Objects at both levels, and a subtype of two digits in lower case. -/
def IsCanonical (value : Json) : Prop :=
  ∃ members payload subtype, value = .object [("$binary", .object members)] ∧
    members.Perm [("base64", .string payload), ("subType", .string subtype)] ∧ IsLowerHexPair subtype

variable {payload subtype : String} {value : Json} {b : Binary}

theorem serialize_eq_toJson (b : Binary) : b.serialize = b.toJson := by
  rfl

theorem holds_toJson (b : Binary) : Holds (Base64.encode b.bytes) (Bytes.hex [b.subtype]) b.toJson :=
  .object (.object (.refl _))

/-- In a value that was read, members stand in one of two orders. -/
theorem merged_of_perm {members : Fields Json}
    (hmembers : members.Perm [("base64", .string payload), ("subType", .string subtype)]) :
    (Json.object [("$binary", .object members)]).merged =
      .object [("$binary", .object [("base64", .string payload), ("subType", .string subtype)])] := by
  rcases List.perm_pair.1 hmembers with rfl | rfl <;> rfl

/-- Two values of the object form are the same if their texts are. -/
theorem toJson_eq_iff : b.toJson =
    .object [("$binary", .object [("base64", .string payload), ("subType", .string subtype)])] ↔
      Base64.encode b.bytes = payload ∧ Bytes.hex [b.subtype] = subtype := by
  simp [toJson]

/-- The texts of an object do not depend on the order of its members. -/
theorem texts_unique {members : Fields Json} {payload' subtype' : String}
    (h : members.Perm [("base64", .string payload), ("subType", .string subtype)])
    (h' : members.Perm [("base64", .string payload'), ("subType", .string subtype')]) :
    payload = payload' ∧ subtype = subtype' := by
  have hmerged := (merged_of_perm h).symm.trans (merged_of_perm h')
  simpa using hmerged

/-- What was read from an array comes out as an object, and a subtype in two digits. -/
theorem toJson_eq_merged_iff (h : Denotes value b) : b.toJson = value.merged ↔ IsCanonical value := by
  obtain ⟨payload, subtype, hholds, hspells, hencoding⟩ := h
  have hpayload : payload = Base64.encode b.bytes :=
    Base64.decode_eq_ok_iff.1 (Base64.decode_eq_ok_iff_isEncoding.2 hencoding)
  cases hholds with
  | array hbody =>
    constructor
    · exact nofun
    · rintro ⟨_, _, _, hvalue, -⟩
      cases hvalue
  | object hbody =>
    cases hbody with
    | array =>
      have hmerged : (Json.object [("$binary", .array [.string payload, .string subtype])]).merged =
        .object [("$binary", .array [.string payload, .string subtype])] := rfl
      rw [hmerged]
      constructor
      · intro hvalue
        simp [toJson] at hvalue
      · rintro ⟨_, _, _, hvalue, -⟩
        simp at hvalue
    | @object members hmembers =>
      rw [merged_of_perm hmembers, toJson_eq_iff, hex_eq_iff hspells]
      constructor
      · rintro ⟨-, hpair⟩
        exact ⟨members, payload, subtype, rfl, hmembers, hpair⟩
      · rintro ⟨members', payload', subtype', hvalue, hmembers', hpair⟩
        obtain rfl : members = members' := by simpa using hvalue
        obtain ⟨rfl, rfl⟩ := texts_unique hmembers hmembers'
        exact ⟨hpayload.symm, hpair⟩

/-- The writers agree, and their value reads back as the binary. -/
structure WrittenAlike (b : Binary) : Prop where
  into : b.intoJson = b.toJson
  serialized : b.serialize = b.toJson
  readBack : ofJson b.toJson = .ok b

/-- What becomes of a value that is read as a binary and written again. -/
structure Rewritten (value : Json) (b : Binary) : Prop where
  again : ofJson b.toJson = .ok b
  /-- Values are compared as decoded values, whose members have an order. -/
  same : b.toJson = value.merged ↔ IsCanonical value
  decoded : value.merged = value → (b.toJson = value ↔ IsCanonical value)
  payloadKept : ∀ payload subtype, Holds payload subtype value → Holds payload (Bytes.hex [b.subtype]) b.toJson

theorem rewritten_of_ofJson (h : ofJson value = .ok b) : Rewritten value b := by
  have hdenotes := ofJson_eq_ok_iff.1 h
  have hsame := toJson_eq_merged_iff hdenotes
  refine ⟨ofJson_toJson b, hsame, ?_, ?_⟩
  · intro hdecoded
    rwa [hdecoded] at hsame
  · intro payload subtype hholds
    rw [ofJson_of_holds hholds] at h
    have hdecode := Base64.decode_eq_ok_iff_isEncoding.2 (ofTexts_eq_ok_iff.1 h).2
    rw [Base64.decode_eq_ok_iff.1 hdecode]
    exact holds_toJson b

/-- Writing and reading binaries fit together: what is written reads back, whoever writes it, and what is read is
written the same if it was canonical, and with the same payload text if it was not. -/
theorem written_and_rewritten :
    (∀ b, WrittenAlike b) ∧ ∀ value b, ofJson value = .ok b → Rewritten value b :=
  ⟨fun b => ⟨rfl, serialize_eq_toJson b, ofJson_toJson b⟩, fun _ _ => rewritten_of_ofJson⟩

/-- A value with an array in place of an object, and a sign and a leading zero in front of its subtype. -/
def looseValue : Json :=
  .array [.object [("base64", .string "AQI="), ("subType", .string "+06")]]

theorem written_and_rewritten_loose :
    ofJson looseValue = .ok ⟨6, [1, 2]⟩ ∧ Rewritten looseValue ⟨6, [1, 2]⟩ :=
  ⟨rfl, written_and_rewritten.2 looseValue ⟨6, [1, 2]⟩ rfl⟩

end Binary

end FieldSeal
