import Mathlib.Algebra.Group.Nat.Defs
import FieldSeal.Proofs.Config.Stored

/-!
Reading configurations. The fields that are stored come back, in whatever order and among whatever other members; a
field whose value is not of its type spoils the whole.
-/

namespace FieldSeal

namespace Config

open FieldSeal.Config.Field

namespace Field

/-- A whole number of sixty-four bits without a sign. -/
inductive IsWord : Json → Prop where
  | whole (n : Nat) (h : n < 2 ^ 64) : IsWord (.number (.integer n))

/-- The values that are of a field's type. -/
inductive Fits : Field → Json → Prop where
  | providers {members : List (String × Json)} (h : ∀ m ∈ members, ∃ properties, m.2 = .object properties) :
      Fits .providers (.object members)
  | bypass (b : Bool) : Fits .bypass (.bool b)
  | keyVaultNamespace (text : String) : Fits .keyVaultNamespace (.string text)
  | connectTimeout {value : Json} (h : IsWord value) : Fits .connectTimeout value
  | ioTimeout {value : Json} (h : IsWord value) : Fits .ioTimeout value
  | responseLimit {value : Json} (h : IsWord value) : Fits .responseLimit value

end Field

theorem word?_isSome_iff (value : Json) : (word? value).isSome = true ↔ IsWord value := by
  constructor
  · intro h
    unfold word? at h
    split at h
    · next n =>
      split at h
      · next hn =>
        obtain ⟨n, rfl⟩ := Int.eq_ofNat_of_zero_le hn.1
        exact .whole n (by omega)
      · cases h
    · cases h
  · rintro ⟨n, hn⟩
    rw [word?, if_pos (by omega)]
    rfl

theorem mapM_namedDocument?_isSome_iff (members : List (String × Json)) :
    (members.mapM namedDocument?).isSome = true ↔ ∀ m ∈ members, ∃ properties, m.2 = .object properties := by
  induction members with
  | nil => exact iff_of_true rfl (List.forall_mem_nil _)
  | cons m rest ih =>
    rw [List.mapM_cons, List.forall_mem_cons, ← ih]
    obtain ⟨name, value⟩ := m
    cases value <;> cases rest.mapM namedDocument? <;> simp [namedDocument?, document?]

/-- A value is put into a field exactly if it is of the field's type. -/
theorem set?_isSome_iff (c : Config) (field : Field) (value : Json) :
    (c.set? field value).isSome = true ↔ field.Fits value := by
  constructor
  · intro h
    cases field with
    | providers =>
      cases value with
      | object members =>
        have hmembers : (members.mapM namedDocument?).isSome = true := by simpa [set?, providers?] using h
        exact .providers ((mapM_namedDocument?_isSome_iff members).1 hmembers)
      | _ => cases h
    | bypass =>
      cases value with
      | bool b => exact .bypass b
      | _ => cases h
    | keyVaultNamespace =>
      cases value with
      | string text => exact .keyVaultNamespace text
      | _ => cases h
    | connectTimeout => exact .connectTimeout ((word?_isSome_iff value).1 (by simpa [set?] using h))
    | ioTimeout => exact .ioTimeout ((word?_isSome_iff value).1 (by simpa [set?] using h))
    | responseLimit => exact .responseLimit ((word?_isSome_iff value).1 (by simpa [set?] using h))
  · intro h
    cases h with
    | providers h => simpa [set?, providers?] using (mapM_namedDocument?_isSome_iff _).2 h
    | bypass b => rfl
    | keyVaultNamespace text => rfl
    | connectTimeout h => simpa [set?] using (word?_isSome_iff value).2 h
    | ioTimeout h => simpa [set?] using (word?_isSome_iff value).2 h
    | responseLimit h => simpa [set?] using (word?_isSome_iff value).2 h

theorem setAll?_isSome_iff (c : Config) (values : List (Field × Json)) :
    (c.setAll? values).isSome = true ↔ ∀ v ∈ values, v.1.Fits v.2 := by
  induction values generalizing c with
  | nil => exact iff_of_true rfl (List.forall_mem_nil _)
  | cons v rest ih =>
    rw [List.forall_mem_cons, ← set?_isSome_iff c, setAll?, List.foldlM_cons]
    cases c.set? v.1 v.2 with
    | none => simp
    | some d => exact (ih d).trans (and_iff_right rfl).symm

theorem mem_known_iff {members : List (String × Json)} {field : Field} {value : Json} :
    (field, value) ∈ known members ↔ (field.name, value) ∈ members := by
  rw [known, List.mem_filterMap]
  constructor
  · rintro ⟨m, hm, hvalue⟩
    obtain ⟨found, hfound, heq⟩ := Option.map_eq_some_iff.1 hvalue
    obtain ⟨rfl, rfl⟩ := Prod.mk.inj heq
    rwa [← ofName?_eq_some_iff.1 hfound]
  · intro hm
    exact ⟨_, hm, by rw [ofName?_name]; rfl⟩

/-- An object is read exactly if no field is given twice and each has a value of its type. -/
theorem ofJson?_object_isSome_iff (members : List (String × Json)) :
    (ofJson? (.object members)).isSome = true ↔
      ((known members).map Prod.fst).Nodup ∧
        ∀ (field : Field) (value : Json), (field.name, value) ∈ members → field.Fits value := by
  rw [ofJson?]
  split
  · next hnodup =>
    rw [setAll?_isSome_iff, and_iff_right hnodup]
    constructor
    · exact fun h field value hm => h (field, value) (mem_known_iff.2 hm)
    · exact fun h v hv => h v.1 v.2 (mem_known_iff.1 hv)
  · next hnodup => exact iff_of_false Bool.false_ne_true fun h => hnodup h.1

/-- An array is read exactly if it is no longer than the list of fields and each value is of its field's type. -/
theorem ofJson?_array_isSome_iff (values : List Json) :
    (ofJson? (.array values)).isSome = true ↔
      values.length ≤ 6 ∧
        ∀ (i : Nat) (field : Field) (value : Json),
          all[i]? = some field → values[i]? = some value → field.Fits value := by
  rw [ofJson?]
  split
  · next hlength =>
    rw [setAll?_isSome_iff, and_iff_right (show values.length ≤ 6 from hlength)]
    constructor
    · intro h i field value hfield hvalue
      exact h (field, value) (List.mem_iff_getElem?.2 ⟨i, List.getElem?_zip_eq_some.2 ⟨hfield, hvalue⟩⟩)
    · intro h v hv
      obtain ⟨i, hi⟩ := List.mem_iff_getElem?.1 hv
      obtain ⟨hfield, hvalue⟩ := List.getElem?_zip_eq_some.1 hi
      exact h i v.1 v.2 hfield hvalue
  · next hlength => exact iff_of_false Bool.false_ne_true fun h => hlength h.1

section Texts

open Json

/-- What the members of a text stand for that name a field. Members that name none need not have a value. -/
inductive Denotes : List (List Piece × Written) → List (String × Json) → Prop where
  | nil : Denotes [] []
  | field {pieces : List Piece} {value : Written} {decoded : Json} {written : List (List Piece × Written)}
      {members : List (String × Json)} (field : Field) (hname : Piece.text? pieces = some field.name)
      (hvalue : value.resolveWithin? (Written.maxLevels - 1) = some decoded) (hrest : Denotes written members) :
      Denotes ((pieces, value) :: written) ((field.name, mergeDocuments decoded) :: members)
  | unknown {pieces : List Piece} {value : Written} {name : String} {written : List (List Piece × Written)}
      {members : List (String × Json)} (hname : Piece.text? pieces = some name)
      (hunknown : ∀ field : Field, name ≠ field.name) (hrest : Denotes written members) :
      Denotes ((pieces, value) :: written) members

theorem Denotes.resolves {written : List (List Piece × Written)} {members : List (String × Json)}
    (h : Denotes written members) : ∃ known decoded, knownWritten? written = some known ∧
      Written.resolveMembers? (Written.maxLevels - 1) known = some decoded ∧
        decoded.map (fun (name, value) => (name, mergeDocuments value)) = members := by
  induction h with
  | nil => exact ⟨[], [], rfl, rfl, rfl⟩
  | @field pieces value decodedValue written members field hname hvalue hrest ih =>
    obtain ⟨known, decoded, hknown, hdecoded, rfl⟩ := ih
    refine ⟨(pieces, value) :: known, (field.name, decodedValue) :: decoded, ?_, ?_, rfl⟩
    · simp [knownWritten?, hname, hknown, ofName?_name]
    · simp [Written.resolveMembers?, hname, hvalue, hdecoded]
  | @unknown pieces value name written members hname hunknown hrest ih =>
    obtain ⟨known, decoded, hknown, hdecoded, rfl⟩ := ih
    have hnone : ofName? name = none :=
      Option.eq_none_iff_forall_not_mem.2 fun field hfield => hunknown field (ofName?_eq_some_iff.1 hfield)
    exact ⟨known, decoded, by simp [knownWritten?, hname, hknown, hnone], hdecoded, rfl⟩

/-- A text that is an object is read as the members that it stands for. -/
theorem ofText?_object {text : String} {written : List (List Piece × Written)} {members : List (String × Json)}
    (htext : Written.ofText? text = some (.object written)) (h : Denotes written members) :
    ofText? text = ofJson? (.object members) := by
  obtain ⟨known, decoded, hknown, hdecoded, rfl⟩ := h.resolves
  have hresolve : (Written.object known).resolve? = some (.object decoded) := by
    rw [Written.resolve?, Written.resolveWithin?, if_neg (by decide), hdecoded]
    rfl
  simp [ofText?, htext, hknown, hresolve]

/-- A text that is an array is read as the values of its elements. -/
theorem ofText?_array {text : String} {elements : List Written} {values : List Json}
    (htext : Written.ofText? text = some (.array elements))
    (h : Written.resolveElements? (Written.maxLevels - 1) elements = some values) :
    ofText? text = ofJson? (.array (values.map mergeDocuments)) := by
  have hresolve : (Written.array elements).resolve? = some (.array values) := by
    rw [Written.resolve?, Written.resolveWithin?, if_neg (by decide), h]
    rfl
  simp [ofText?, htext, hresolve]

end Texts

/-- A configuration comes back from what is stored of it, with defaults for the rest. -/
structure Restores (c : Config) : Prop where
  /-- Stored fields may stand in any order in an object, and among members of other names with any values. -/
  object : ∀ (kept : Field → Bool) (members unknown : List (String × Json)),
    (∀ m ∈ unknown, ∀ field : Field, m.1 ≠ field.name) → members.Perm (c.stored kept ++ unknown) →
      ofJson? (.object members) = some (c.keeping kept)
  /-- An array holds the values of the leading fields. -/
  array : ∀ k ≤ 6, ofJson? (.array ((all.map c.get).take k)) =
    some (c.keeping fun field => decide (field ∈ all.take k))
  whole : ofJson? c.toJson = some c

/-- What is read at all, and what it is read as. -/
structure ReadsExactly : Prop where
  object : ∀ members : List (String × Json), (ofJson? (.object members)).isSome = true ↔
    ((known members).map Prod.fst).Nodup ∧
      ∀ (field : Field) (value : Json), (field.name, value) ∈ members → field.Fits value
  array : ∀ values : List Json, (ofJson? (.array values)).isSome = true ↔
    values.length ≤ 6 ∧ ∀ (i : Nat) (field : Field) (value : Json),
      all[i]? = some field → values[i]? = some value → field.Fits value
  /-- A text is read as the object or the array that it writes. -/
  text : ∀ (text : String) (written : List (List Json.Piece × Json.Written)) (members : List (String × Json)),
    Json.Written.ofText? text = some (.object written) → Denotes written members →
      ofText? text = ofJson? (.object members)
  arrayText : ∀ (text : String) (elements : List Json.Written) (values : List Json),
    Json.Written.ofText? text = some (.array elements) →
      Json.Written.resolveElements? (Json.Written.maxLevels - 1) elements = some values →
        ofText? text = ofJson? (.array (values.map mergeDocuments))

/-- Configurations survive being stored in full or in part, and nothing that does not fit is read. -/
theorem stored_configurations_restored : (∀ c : Config, Restores c) ∧ ReadsExactly where
  left c := {
    object := fun kept _ _ => ofJson?_object c kept
    array := fun k _ => ofJson?_array c k
    whole := ofJson?_toJson c }
  right := {
    object := ofJson?_object_isSome_iff
    array := ofJson?_array_isSome_iff
    text := fun _ _ _ => ofText?_object
    arrayText := fun _ _ _ => ofText?_array }

/-- A null is not a default. -/
example : ofJson? (.object [("bypass_auto_encryption", .bool true), ("kms_io_timeout_ms", .null)]) = none :=
  rfl

end Config

end FieldSeal
