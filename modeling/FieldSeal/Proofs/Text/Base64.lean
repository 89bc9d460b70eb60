import Mathlib.Data.Nat.Digits.Lemmas
import Mathlib.Data.Option.Basic
import FieldSeal.Proofs.Text.Alphabets

/-!
Base64 text. Every byte string is read back from its encoding, and nothing but an encoding is read: a text that can be
decoded is the encoding of what it is decoded to.
-/

namespace FieldSeal

namespace Base64

section Groups

variable {w x y z : Nat} (hw : w < 64) (hx : x < 64) (hy : y < 64)
include hw hx

/-- Two symbols stand for one byte if the bits left over are zero. -/
theorem decodeChars?_pair (hzero : x % 16 = 0) :
    decodeChars? [symbol w, symbol x, '=', '='] = some [UInt8.ofNat (w * 4 + x / 16)] := by
  have hguard : guard (x % 16 = 0) = some () := if_pos hzero
  rw [decodeChars?, value?_symbol hw, value?_symbol hx]
  show (guard (x % 16 = 0) >>= fun _ => some _) = _
  rw [hguard]
  rfl

include hy

/-- Three symbols stand for two bytes if the bits left over are zero. -/
theorem decodeChars?_triple (hzero : y % 4 = 0) :
    decodeChars? [symbol w, symbol x, symbol y, '='] =
      some [UInt8.ofNat (w * 4 + x / 16), UInt8.ofNat (x % 16 * 16 + y / 4)] := by
  have hguard : guard (y % 4 = 0) = some () := if_pos hzero
  rw [decodeChars?]
  · rw [value?_symbol hw, value?_symbol hx, value?_symbol hy]
    show (guard (y % 4 = 0) >>= fun _ => some _) = _
    rw [hguard]
    rfl
  · exact symbol_ne_pad hy

theorem decodeChars?_group (hz : z < 64) {rest : List Char} {bytes : Bytes} (hrest : decodeChars? rest = some bytes) :
    decodeChars? (symbol w :: symbol x :: symbol y :: symbol z :: rest) =
      some (UInt8.ofNat (w * 4 + x / 16) :: UInt8.ofNat (x % 16 * 16 + y / 4) ::
        UInt8.ofNat (y % 4 * 64 + z) :: bytes) := by
  rw [decodeChars?]
  · simp only [value?_symbol hw, value?_symbol hx, value?_symbol hy, value?_symbol hz, hrest]
    rfl
  · exact fun _ hpad _ => symbol_ne_pad hz hpad
  · exact fun hpad _ => symbol_ne_pad hz hpad

end Groups

/-- The first byte of a group: six bits of the first symbol and two of the second. -/
theorem firstByte (a : UInt8) (low : Nat) (hlow : low < 16) :
    UInt8.ofNat (a.toNat / 4 * 4 + (a.toNat % 4 * 16 + low) / 16) = a := by
  have hbits : a.toNat / 4 * 4 + (a.toNat % 4 * 16 + low) / 16 = a.toNat := by omega
  rw [hbits, UInt8.ofNat_toNat]

/-- The second byte: four bits of the second symbol and four of the third. -/
theorem secondByte (b : UInt8) (high low : Nat) (hlow : low < 4) :
    UInt8.ofNat ((high * 16 + b.toNat / 16) % 16 * 16 + (b.toNat % 16 * 4 + low) / 4) = b := by
  have hb := b.toNat_lt
  have hbits : (high * 16 + b.toNat / 16) % 16 * 16 + (b.toNat % 16 * 4 + low) / 4 = b.toNat := by omega
  rw [hbits, UInt8.ofNat_toNat]

/-- The third byte: two bits of the third symbol and all of the fourth. -/
theorem thirdByte (c : UInt8) (high : Nat) :
    UInt8.ofNat ((high * 4 + c.toNat / 64) % 4 * 64 + c.toNat % 64) = c := by
  have hc := c.toNat_lt
  have hbits : (high * 4 + c.toNat / 64) % 4 * 64 + c.toNat % 64 = c.toNat := by omega
  rw [hbits, UInt8.ofNat_toNat]

theorem decodeChars?_encodeChars (bytes : Bytes) : decodeChars? (encodeChars bytes) = some bytes := by
  fun_induction encodeChars bytes with
  | case1 => rfl
  | case2 a =>
    have ha := a.toNat_lt
    have hfirst := firstByte a 0 (by omega)
    rw [decodeChars?_pair (by omega) (by omega) (by omega)]
    simpa using hfirst
  | case3 a b =>
    have ha := a.toNat_lt
    have hb := b.toNat_lt
    have hsecond := secondByte b (a.toNat % 4) 0 (by omega)
    rw [decodeChars?_triple (by omega) (by omega) (by omega) (by omega), firstByte a _ (by omega)]
    simpa using hsecond
  | case4 a b c rest ih =>
    have ha := a.toNat_lt
    have hb := b.toNat_lt
    have hc := c.toNat_lt
    rw [decodeChars?_group (by omega) (by omega) (by omega) (by omega) ih, firstByte a _ (by omega),
      secondByte b _ _ (by omega), thirdByte c]

/-- The bytes of a group, and what is left of its symbols when they are taken apart again. -/
theorem toNat_firstByte {w x : Nat} (hw : w < 64) (hx : x < 64) :
    (UInt8.ofNat (w * 4 + x / 16)).toNat = w * 4 + x / 16 :=
  UInt8.toNat_ofNat_of_lt' (by show _ < 256; omega)

theorem toNat_secondByte {x y : Nat} (hy : y < 64) :
    (UInt8.ofNat (x % 16 * 16 + y / 4)).toNat = x % 16 * 16 + y / 4 :=
  UInt8.toNat_ofNat_of_lt' (by show _ < 256; omega)

theorem toNat_thirdByte {y z : Nat} (hz : z < 64) :
    (UInt8.ofNat (y % 4 * 64 + z)).toNat = y % 4 * 64 + z :=
  UInt8.toNat_ofNat_of_lt' (by show _ < 256; omega)

section Inverse

variable {w x y z : Nat} (hw : w < 64) (hx : x < 64) (hy : y < 64)
include hw hx

/-- Two symbols of which no bit is lost are those of the byte they stand for. -/
theorem encodeChars_pair (hzero : x % 16 = 0) :
    encodeChars [UInt8.ofNat (w * 4 + x / 16)] = [symbol w, symbol x, '=', '='] := by
  have hfirst : (w * 4 + x / 16) / 4 = w := by omega
  have hsecond : (w * 4 + x / 16) % 4 * 16 = x := by omega
  rw [encodeChars, toNat_firstByte hw hx, hfirst, hsecond]

include hy

theorem encodeChars_triple (hzero : y % 4 = 0) :
    encodeChars [UInt8.ofNat (w * 4 + x / 16), UInt8.ofNat (x % 16 * 16 + y / 4)] =
      [symbol w, symbol x, symbol y, '='] := by
  have hfirst : (w * 4 + x / 16) / 4 = w := by omega
  have hsecond : (w * 4 + x / 16) % 4 * 16 + (x % 16 * 16 + y / 4) / 16 = x := by omega
  have hthird : (x % 16 * 16 + y / 4) % 16 * 4 = y := by omega
  rw [encodeChars, toNat_firstByte hw hx, toNat_secondByte hy, hfirst, hsecond, hthird]

theorem encodeChars_group (hz : z < 64) (bytes : Bytes) :
    encodeChars (UInt8.ofNat (w * 4 + x / 16) :: UInt8.ofNat (x % 16 * 16 + y / 4) ::
      UInt8.ofNat (y % 4 * 64 + z) :: bytes) =
        symbol w :: symbol x :: symbol y :: symbol z :: encodeChars bytes := by
  have hfirst : (w * 4 + x / 16) / 4 = w := by omega
  have hsecond : (w * 4 + x / 16) % 4 * 16 + (x % 16 * 16 + y / 4) / 16 = x := by omega
  have hthird : (x % 16 * 16 + y / 4) % 16 * 4 + (y % 4 * 64 + z) / 64 = y := by omega
  have hfourth : (y % 4 * 64 + z) % 64 = z := by omega
  rw [encodeChars, toNat_firstByte hw hx, toNat_secondByte hy, toNat_thirdByte hz, hfirst, hsecond, hthird, hfourth]

end Inverse

/-- The cases are those of the reader: an empty text, one or two bytes with padding, a whole group, and no text that
can be decoded. -/
theorem eq_encodeChars_of_decodeChars? {text : List Char} {bytes : Bytes} (h : decodeChars? text = some bytes) :
    text = encodeChars bytes := by
  fun_induction decodeChars? text generalizing bytes with
  | case1 =>
    rw [← Option.some.inj h]
    rfl
  | case2 a b =>
    simp only [Option.bind_eq_bind, Option.bind_eq_some_iff] at h
    obtain ⟨w, hwvalue, x, hxvalue, _, hzero, hbytes⟩ := h
    obtain ⟨hw, rfl⟩ := eq_symbol_of_value? hwvalue
    obtain ⟨hx, rfl⟩ := eq_symbol_of_value? hxvalue
    rw [← Option.some.inj hbytes, encodeChars_pair hw hx ((Option.guard_eq_some' _).1 hzero)]
  | case3 a b c hc =>
    simp only [Option.bind_eq_bind, Option.bind_eq_some_iff] at h
    obtain ⟨w, hwvalue, x, hxvalue, y, hyvalue, _, hzero, hbytes⟩ := h
    obtain ⟨hw, rfl⟩ := eq_symbol_of_value? hwvalue
    obtain ⟨hx, rfl⟩ := eq_symbol_of_value? hxvalue
    obtain ⟨hy, rfl⟩ := eq_symbol_of_value? hyvalue
    rw [← Option.some.inj hbytes, encodeChars_triple hw hx hy ((Option.guard_eq_some' _).1 hzero)]
  | case4 a b c d rest _ _ ih =>
    simp only [Option.bind_eq_bind, Option.bind_eq_some_iff] at h
    obtain ⟨w, hwvalue, x, hxvalue, y, hyvalue, z, hzvalue, decoded, hrest, hbytes⟩ := h
    obtain ⟨hw, rfl⟩ := eq_symbol_of_value? hwvalue
    obtain ⟨hx, rfl⟩ := eq_symbol_of_value? hxvalue
    obtain ⟨hy, rfl⟩ := eq_symbol_of_value? hyvalue
    obtain ⟨hz, rfl⟩ := eq_symbol_of_value? hzvalue
    rw [← Option.some.inj hbytes, encodeChars_group hw hx hy hz, ih hrest]
  | case5 => cases h

theorem decode_encode (bytes : Bytes) : decode (encode bytes) = .ok bytes := by
  unfold decode decode? encode
  rw [String.toList_ofList, decodeChars?_encodeChars]

section Grammar

/-- The encodings of a byte string, whatever makes them. The symbols are digits of base sixty-four, the most
significant first; they stand for the number that the bytes are in base 256, with two zero bits behind it for each
character of padding. -/
def IsEncoding (text : List Char) (bytes : Bytes) : Prop :=
  ∃ digits values padding, text = digits ++ List.replicate padding '=' ∧ padding < 3 ∧
    List.Forall₂ (fun c value => symbols[value]? = some c) digits values ∧
    6 * values.length = 8 * bytes.length + 2 * padding ∧
    Nat.ofDigits 64 values.reverse = Nat.ofDigits 256 (bytes.map UInt8.toNat).reverse * 4 ^ padding

theorem pow_length {symbolCount byteCount padding : Nat} (h : 6 * symbolCount = 8 * byteCount + 2 * padding) :
    64 ^ symbolCount = 256 ^ byteCount * 4 ^ padding := by
  calc 64 ^ symbolCount = 2 ^ (6 * symbolCount) := by rw [pow_mul]; norm_num
    _ = 2 ^ (8 * byteCount + 2 * padding) := by rw [h]
    _ = 256 ^ byteCount * 4 ^ padding := by rw [pow_add, pow_mul, pow_mul]; norm_num

theorem isEncoding_encodeChars (bytes : Bytes) : IsEncoding (encodeChars bytes) bytes := by
  fun_induction encodeChars bytes with
  | case1 => exact ⟨[], [], 0, rfl, by omega, .nil, rfl, rfl⟩
  | case2 a =>
    have ha := a.toNat_lt
    generalize hw : a.toNat / 4 = w
    generalize hx : a.toNat % 4 * 16 = x
    refine ⟨[symbol w, symbol x], [w, x], 2, rfl, by omega, ?_, rfl, ?_⟩
    · exact .cons (getElem?_symbols (by omega)) (.cons (getElem?_symbols (by omega)) .nil)
    · simp [Nat.ofDigits_cons]
      omega
  | case3 a b =>
    have ha := a.toNat_lt
    have hb := b.toNat_lt
    generalize hw : a.toNat / 4 = w
    generalize hx : a.toNat % 4 * 16 + b.toNat / 16 = x
    generalize hy : b.toNat % 16 * 4 = y
    refine ⟨[symbol w, symbol x, symbol y], [w, x, y], 1, rfl, by omega, ?_, rfl, ?_⟩
    · exact .cons (getElem?_symbols (by omega)) (.cons (getElem?_symbols (by omega))
        (.cons (getElem?_symbols (by omega)) .nil))
    · simp [Nat.ofDigits_cons]
      omega
  | case4 a b c rest ih =>
    have ha := a.toNat_lt
    have hb := b.toNat_lt
    have hc := c.toNat_lt
    obtain ⟨digits, values, padding, htext, hpadding, hdigits, hlength, hnumber⟩ := ih
    generalize hw : a.toNat / 4 = w
    generalize hx : a.toNat % 4 * 16 + b.toNat / 16 = x
    generalize hy : b.toNat % 16 * 4 + c.toNat / 64 = y
    generalize hz : c.toNat % 64 = z
    refine ⟨symbol w :: symbol x :: symbol y :: symbol z :: digits, w :: x :: y :: z :: values, padding, ?_,
      hpadding, ?_, ?_, ?_⟩
    · rw [htext]
      rfl
    · exact .cons (getElem?_symbols (by omega)) (.cons (getElem?_symbols (by omega))
        (.cons (getElem?_symbols (by omega)) (.cons (getElem?_symbols (by omega)) hdigits)))
    · simp only [List.length_cons]
      omega
    · have hgroup : w * 64 ^ 3 + x * 64 ^ 2 + y * 64 + z = a.toNat * 256 ^ 2 + b.toNat * 256 + c.toNat := by
        omega
      simp only [List.map_cons, Nat.ofDigits_reverse_cons, List.length_cons, List.length_map, hnumber]
      -- the group is shifted by what follows it, as symbols and as bytes
      calc _ = Nat.ofDigits 256 (rest.map UInt8.toNat).reverse * 4 ^ padding +
            (w * 64 ^ 3 + x * 64 ^ 2 + y * 64 + z) * 64 ^ values.length := by ring
        _ = Nat.ofDigits 256 (rest.map UInt8.toNat).reverse * 4 ^ padding +
            (a.toNat * 256 ^ 2 + b.toNat * 256 + c.toNat) * (256 ^ rest.length * 4 ^ padding) := by
          rw [hgroup, pow_length hlength]
        _ = _ := by ring

theorem values_lt {digits : List Char} {values : List Nat}
    (h : List.Forall₂ (fun c value => symbols[value]? = some c) digits values) :
    ∀ value ∈ values, value < 64 := by
  induction h with
  | nil => exact List.forall_mem_nil _
  | cons hd _ ih => exact List.forall_mem_cons.2 ⟨(List.getElem?_eq_some_iff.1 hd).1, ih⟩

/-- The length of a byte string decides how much padding there is, its number which symbols. -/
theorem IsEncoding.unique {text other : List Char} {bytes : Bytes} (htext : IsEncoding text bytes)
    (hother : IsEncoding other bytes) : text = other := by
  obtain ⟨digits, values, padding, rfl, hpadding, hdigits, hlength, hnumber⟩ := htext
  obtain ⟨digits', values', padding', rfl, hpadding', hdigits', hlength', hnumber'⟩ := hother
  obtain rfl : padding = padding' := by omega
  have hvalues : values.reverse = values'.reverse := by
    have hbase : 1 < 64 := by norm_num
    apply Nat.ofDigits_inj_of_len_eq hbase
    · simp only [List.length_reverse]
      omega
    · exact fun value hvalue => values_lt hdigits value (List.mem_reverse.1 hvalue)
    · exact fun value hvalue => values_lt hdigits' value (List.mem_reverse.1 hvalue)
    · rw [hnumber, hnumber']
  obtain rfl : values = values' := List.reverse_injective hvalues
  have hunique : Relator.LeftUnique fun (c : Char) (value : Nat) => symbols[value]? = some c :=
    fun c value d hc hd => Option.some.inj (hc.symm.trans hd)
  rw [List.left_unique_forall₂' hunique hdigits hdigits']

end Grammar

theorem decode_eq_ok_iff {text : String} {bytes : Bytes} : decode text = .ok bytes ↔ text = encode bytes := by
  constructor
  · intro h
    unfold decode at h
    cases hbytes : decode? text with
    | none => simp [hbytes] at h
    | some decoded =>
      simp only [hbytes, Except.ok.injEq] at h
      rw [encode, ← h, ← eq_encodeChars_of_decodeChars? hbytes, String.ofList_toList]
  · rintro rfl
    exact decode_encode bytes

/-- A text is decoded just if it is an encoding: with all its padding, and no bit set that is not used. -/
theorem decode_eq_ok_iff_isEncoding {text : String} {bytes : Bytes} :
    decode text = .ok bytes ↔ IsEncoding text.toList bytes := by
  rw [decode_eq_ok_iff]
  constructor
  · rintro rfl
    rw [encode, String.toList_ofList]
    exact isEncoding_encodeChars bytes
  · intro h
    rw [encode, ← h.unique (isEncoding_encodeChars bytes), String.ofList_toList]

end Base64

end FieldSeal
