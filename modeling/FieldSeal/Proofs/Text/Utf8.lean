import FieldSeal.Bytes

/-!
UTF-8 keeps the order of texts. The text whose characters come first is the one whose bytes come first: an encoding
with more bytes has the greater first byte, and one with as many bytes is compared from the high bits down.
-/

namespace FieldSeal.Text

variable {m n : Nat} {xs ys : Bytes}

theorem byte_cons_lt_of_lt (h : m < n) (hn : n < 256) : UInt8.ofNat m :: xs < UInt8.ofNat n :: ys := by
  refine List.cons_lt_cons_iff.2 (.inl (UInt8.lt_iff_toNat_lt.2 ?_))
  rwa [UInt8.toNat_ofNat_of_lt' (Nat.lt_trans h hn), UInt8.toNat_ofNat_of_lt' hn]

theorem byte_cons_lt_of_le (h : m ≤ n) (hn : n < 256) (htail : m = n → xs < ys) :
    UInt8.ofNat m :: xs < UInt8.ofNat n :: ys := by
  rcases Nat.lt_or_eq_of_le h with hlt | rfl
  · exact byte_cons_lt_of_lt hlt hn
  · exact List.cons_lt_cons_iff.2 (.inr ⟨rfl, htail rfl⟩)

/-- Of two characters the first has the first encoding, whatever follows them. -/
theorem utf8EncodeChar_append_lt {c d : Char} (h : c < d) (xs ys : Bytes) :
    String.utf8EncodeChar c ++ xs < String.utf8EncodeChar d ++ ys := by
  have hlt : c.val.toNat < d.val.toNat := h
  have hbound : d.val.toNat < 0x110000 := by
    rcases d.valid with hlow | hhigh
    · exact Nat.lt_trans hlow (by decide)
    · exact hhigh.2
  unfold String.utf8EncodeChar
  generalize c.val.toNat = m at hlt
  generalize d.val.toNat = n at hlt hbound
  simp only
  split
  case isTrue hone =>
    split
    case isTrue => exact byte_cons_lt_of_lt hlt (by omega)
    case isFalse =>
      split
      case isTrue => exact byte_cons_lt_of_lt (by omega) (by omega)
      case isFalse => split <;> exact byte_cons_lt_of_lt (by omega) (by omega)
  case isFalse hone =>
    rw [if_neg (show ¬ n ≤ 0x7f by omega)]
    split
    case isTrue htwo =>
      split
      case isTrue =>
        exact byte_cons_lt_of_le (by omega) (by omega) fun _ => byte_cons_lt_of_lt (by omega) (by omega)
      case isFalse => split <;> exact byte_cons_lt_of_lt (by omega) (by omega)
    case isFalse htwo =>
      rw [if_neg (show ¬ n ≤ 0x7ff by omega)]
      split
      case isTrue hthree =>
        split
        case isTrue =>
          exact byte_cons_lt_of_le (by omega) (by omega) fun _ =>
            byte_cons_lt_of_le (by omega) (by omega) fun _ => byte_cons_lt_of_lt (by omega) (by omega)
        case isFalse => exact byte_cons_lt_of_lt (by omega) (by omega)
      case isFalse hthree =>
        rw [if_neg (show ¬ n ≤ 0xffff by omega)]
        exact byte_cons_lt_of_le (by omega) (by omega) fun _ =>
          byte_cons_lt_of_le (by omega) (by omega) fun _ =>
            byte_cons_lt_of_le (by omega) (by omega) fun _ => byte_cons_lt_of_lt (by omega) (by omega)

theorem flatMap_utf8EncodeChar_lt {cs ds : List Char} (h : cs < ds) :
    cs.flatMap String.utf8EncodeChar < ds.flatMap String.utf8EncodeChar := by
  induction cs generalizing ds with
  | nil =>
    cases ds with
    | nil => exact absurd h (List.not_lt_nil _)
    | cons d ds =>
      obtain ⟨b, rest, hd⟩ := List.exists_cons_of_ne_nil (String.utf8EncodeChar_ne_nil (c := d))
      rw [List.flatMap_nil, List.flatMap_cons, hd]
      exact List.nil_lt_cons _ _
  | cons c cs ih =>
    cases ds with
    | nil => exact absurd h (List.not_lt_nil _)
    | cons d ds =>
      rw [List.flatMap_cons, List.flatMap_cons]
      rcases List.cons_lt_cons_iff.1 h with hlt | ⟨rfl, hrest⟩
      · exact utf8EncodeChar_append_lt hlt _ _
      · exact List.append_left_lt (ih hrest)

theorem toList_toUTF8 (text : String) : text.toUTF8.data.toList = text.toList.flatMap String.utf8EncodeChar := by
  rw [String.toUTF8_eq_toByteArray, ← String.utf8Encode_toList]
  exact List.toList_data_toByteArray

theorem toUTF8_lt {a b : String} (h : a < b) : a.toUTF8.data.toList < b.toUTF8.data.toList := by
  rw [toList_toUTF8, toList_toUTF8]
  exact flatMap_utf8EncodeChar_lt h

end FieldSeal.Text
