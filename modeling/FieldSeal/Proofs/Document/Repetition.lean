import FieldSeal.Proofs.Document.Reencoding
import FieldSeal.Proofs.Fields.Lookup
import FieldSeal.Proofs.Json.Records

/-!
The two ways from a text to a binary, straight and by way of the decoded value. They differ in one point only: a name
that an object repeats is refused on the straight way, while decoding keeps the last of its members.
-/

namespace FieldSeal

namespace Json

/-- The value of a whole text as it stands, with repeated names. -/
def asWritten? (text : String) : Option Json :=
  (Written.ofText? text).bind Written.resolve?

theorem ofText?_eq_map (text : String) : ofText? text = (asWritten? text).map merged := by
  rw [asWritten?, Option.map_bind]
  rfl

section Merging

variable {value : Json} {members : Fields Json} {text : String}

theorem mergedElements_eq_map (elements : List Json) : mergedElements elements = elements.map merged := by
  induction elements with
  | nil => rfl
  | cons e rest ih => rw [mergedElements, ih, List.map_cons]

theorem mergedMembers_eq_map (members : Fields Json) :
    mergedMembers members = members.map fun m => (m.1, m.2.merged) := by
  induction members with
  | nil => rfl
  | cons m rest ih => rw [mergedMembers, ih, List.map_cons]

theorem names_mergedMembers (members : Fields Json) : Fields.names (mergedMembers members) = members.names := by
  rw [mergedMembers_eq_map, Fields.names, List.map_map]
  rfl

theorem merged_eq_string_iff : value.merged = .string text ↔ value = .string text := by
  cases value <;> simp [merged]

theorem merged_eq_array_iff {merged : List Json} : value.merged = .array merged ↔
    ∃ elements, value = .array elements ∧ mergedElements elements = merged := by
  cases value <;> simp [Json.merged]

theorem merged_eq_object_iff {kept : Fields Json} : value.merged = .object kept ↔
    ∃ members, value = .object members ∧ Fields.ofList (mergedMembers members) = kept := by
  cases value <;> simp [merged]

/-- Texts have nothing to merge. -/
theorem mergedMembers_eq_self (h : ∀ m ∈ mergedMembers members, ∃ text, m.2 = .string text) :
    mergedMembers members = members := by
  induction members with
  | nil => rfl
  | cons m rest ih =>
    obtain ⟨htext, hrest⟩ := List.forall_mem_cons.1 h
    obtain ⟨text, htext⟩ := htext
    obtain ⟨name, value⟩ := m
    obtain rfl := merged_eq_string_iff.1 htext
    rw [mergedMembers, ih hrest]
    rfl

end Merging

section Repetition

/-- A value within a value: the value itself, or one within an element or a member. -/
inductive Within (inner : Json) : Json → Prop where
  | self : Within inner inner
  | element {e : Json} {elements : List Json} (hmem : e ∈ elements) (h : Within inner e) :
      Within inner (.array elements)
  | member {m : String × Json} {members : Fields Json} (hmem : m ∈ members) (h : Within inner m.2) :
      Within inner (.object members)

/-- One of the objects in the value has two members of this name. -/
def Repeats (value : Json) (name : String) : Prop :=
  ∃ members, Within (.object members) value ∧ 2 ≤ (Fields.names members).count name

variable {name text : String} {elements : List Json} {members : Fields Json}

theorem not_repeats_string : ¬ (string text).Repeats name := by
  rintro ⟨members, hwithin, -⟩
  cases hwithin

theorem repeats_array_iff : (array elements).Repeats name ↔ ∃ e ∈ elements, e.Repeats name := by
  constructor
  · rintro ⟨members, hwithin, hcount⟩
    cases hwithin with
    | element hmem h => exact ⟨_, hmem, members, h, hcount⟩
  · rintro ⟨e, hmem, members, h, hcount⟩
    exact ⟨members, .element hmem h, hcount⟩

theorem repeats_object_iff : (object members).Repeats name ↔
    2 ≤ members.names.count name ∨ ∃ m ∈ members, m.2.Repeats name := by
  constructor
  · rintro ⟨inner, hwithin, hcount⟩
    cases hwithin with
    | self => exact .inl hcount
    | member hmem h => exact .inr ⟨_, hmem, inner, h, hcount⟩
  · rintro (hcount | ⟨m, hmem, inner, h, hcount⟩)
    · exact ⟨members, .self, hcount⟩
    · exact ⟨inner, .member hmem h, hcount⟩

/-- Decoding drops nothing where no name that it keeps was repeated. -/
theorem perm_merged {kept : Fields Json} (hkept : (Fields.ofList (mergedMembers members)).Perm kept)
    (h : ∀ name ∈ kept.names, ¬ (object members).Repeats name) : (mergedMembers members).Perm kept := by
  have hnodup : (Fields.names (mergedMembers members)).Nodup := by
    rw [names_mergedMembers, List.nodup_iff_count_le_one]
    intro name
    by_cases hname : name ∈ kept.names
    · exact Nat.le_of_lt_succ (Nat.lt_of_not_le fun hcount => h name hname (repeats_object_iff.2 (.inl hcount)))
    · have hmem : name ∉ members.names := by
        intro hmem
        rw [← names_mergedMembers, ← Fields.mem_names_ofList] at hmem
        exact hname ((hkept.map Prod.fst).mem_iff.1 hmem)
      rw [List.count_eq_zero_of_not_mem hmem]
      exact Nat.zero_le 1
  exact (Fields.perm_ofList hnodup).symm.trans hkept

end Repetition

end Json

namespace Binary

variable {payload subtype name text : String} {value body : Json} {b : Binary}

/-- The names of the fields of the two records. -/
def fieldNames : List String := ["$binary", "base64", "subType"]

section Shape

theorem BodyHolds.merged (h : BodyHolds payload subtype body) : BodyHolds payload subtype body.merged := by
  cases h with
  | object hmembers =>
    rcases List.perm_pair.1 hmembers with rfl | rfl
    · exact .object (.refl _)
    · exact .object (.refl _)
  | array => exact .array

theorem Holds.merged (h : Holds payload subtype value) : Holds payload subtype value.merged := by
  cases h with
  | object hbody => exact .object hbody.merged
  | array hbody => exact .array hbody.merged

theorem BodyHolds.not_repeats (h : BodyHolds payload subtype body) : ¬ body.Repeats name := by
  cases h with
  | @object members hmembers =>
    have hnames : members.names.Perm ["base64", "subType"] := hmembers.map Prod.fst
    rw [Json.repeats_object_iff]
    rintro (hcount | ⟨m, hmem, hm⟩)
    · have hnodup : members.names.Nodup := hnames.nodup_iff.2 (by decide)
      have := List.nodup_iff_count_le_one.1 hnodup name
      omega
    · have hmem := hmembers.mem_iff.1 hmem
      simp only [List.mem_cons, List.not_mem_nil, or_false] at hmem
      rcases hmem with rfl | rfl
      · exact Json.not_repeats_string hm
      · exact Json.not_repeats_string hm
  | array =>
    rw [Json.repeats_array_iff]
    rintro ⟨e, hmem, he⟩
    simp only [List.mem_cons, List.not_mem_nil, or_false] at hmem
    rcases hmem with rfl | rfl
    · exact Json.not_repeats_string he
    · exact Json.not_repeats_string he

theorem Holds.not_repeats (h : Holds payload subtype value) : ¬ value.Repeats name := by
  cases h with
  | object hbody =>
    rw [Json.repeats_object_iff]
    rintro (hcount | ⟨m, hmem, hm⟩)
    · have := List.count_le_length (l := [("$binary" : String)]) (a := name)
      exact absurd (hcount.trans this) (by decide)
    · obtain rfl := List.mem_singleton.1 hmem
      exact hbody.not_repeats hm
  | array hbody =>
    rw [Json.repeats_array_iff]
    rintro ⟨e, hmem, he⟩
    obtain rfl := List.mem_singleton.1 hmem
    exact hbody.not_repeats he

theorem bodyHolds_of_merged (h : BodyHolds payload subtype body.merged)
    (hnot : ∀ name ∈ ["base64", "subType"], ¬ body.Repeats name) : BodyHolds payload subtype body := by
  generalize hmerged : body.merged = merged at h
  cases h with
  | @object kept hkept =>
    obtain ⟨members, rfl, rfl⟩ := Json.merged_eq_object_iff.1 hmerged
    have hnames : (Fields.names (Fields.ofList (Json.mergedMembers members))).Perm ["base64", "subType"] :=
      hkept.map Prod.fst
    have hperm := Json.perm_merged hkept fun name hname => hnot name hname
    have hself : Json.mergedMembers members = members := by
      refine Json.mergedMembers_eq_self fun m hm => ?_
      have hm := hperm.mem_iff.1 hm
      simp only [List.mem_cons, List.not_mem_nil, or_false] at hm
      rcases hm with rfl | rfl
      · exact ⟨payload, rfl⟩
      · exact ⟨subtype, rfl⟩
    rw [hself] at hperm
    exact .object hperm
  | array =>
    obtain ⟨elements, rfl, helements⟩ := Json.merged_eq_array_iff.1 hmerged
    rw [Json.mergedElements_eq_map] at helements
    obtain ⟨e, _, rfl, he, helements⟩ := List.map_eq_cons_iff.1 helements
    obtain ⟨f, _, rfl, hf, hnil⟩ := List.map_eq_cons_iff.1 helements
    rw [List.map_eq_nil_iff.1 hnil, Json.merged_eq_string_iff.1 he, Json.merged_eq_string_iff.1 hf]
    exact .array

theorem holds_of_merged (h : Holds payload subtype value.merged) (hnot : ∀ name ∈ fieldNames, ¬ value.Repeats name) :
    Holds payload subtype value := by
  generalize hmerged : value.merged = merged at h
  cases h with
  | @object kept hkept =>
    obtain ⟨members, rfl, hone⟩ := Json.merged_eq_object_iff.1 hmerged
    have hperm := Json.perm_merged (.of_eq hone) fun name hname =>
      hnot name (List.mem_singleton.1 hname ▸ List.mem_cons_self)
    rw [List.perm_singleton, Json.mergedMembers_eq_map] at hperm
    obtain ⟨⟨name, inner⟩, _, rfl, hm, hnil⟩ := List.map_eq_cons_iff.1 hperm
    cases hm
    rw [List.map_eq_nil_iff.1 hnil] at hnot ⊢
    refine .object (bodyHolds_of_merged hkept fun name hname hrepeats => ?_)
    exact hnot name (List.mem_cons_of_mem _ hname)
      (Json.repeats_object_iff.2 (.inr ⟨_, List.mem_cons_self, hrepeats⟩))
  | @array kept hkept =>
    obtain ⟨elements, rfl, helements⟩ := Json.merged_eq_array_iff.1 hmerged
    rw [Json.mergedElements_eq_map] at helements
    obtain ⟨e, _, rfl, rfl, hnil⟩ := List.map_eq_cons_iff.1 helements
    rw [List.map_eq_nil_iff.1 hnil]
    refine .array (bodyHolds_of_merged hkept fun name hname hrepeats => ?_)
    exact hnot name (List.mem_cons_of_mem _ hname) (Json.repeats_array_iff.2 ⟨e, List.mem_cons_self, hrepeats⟩)

end Shape

section Records

variable {record : Fields (Fields String)}

theorem ofJson?_eq_some_iff : ofJson? value = some b ↔
    ∃ payload subtype, Holds payload subtype value ∧ (ofTexts payload subtype).toOption = some b := by
  constructor
  · intro h
    by_cases hholds : ∃ payload subtype, Holds payload subtype value
    · obtain ⟨payload, subtype, hholds⟩ := hholds
      rw [ofJson?, ofJson_of_holds hholds] at h
      exact ⟨payload, subtype, hholds, h⟩
    · rw [ofJson?, ofJson_of_not_holds (by simpa using hholds)] at h
      cases h
  · rintro ⟨payload, subtype, hholds, h⟩
    rw [ofJson?, ofJson_of_holds hholds, h]

/-- A text is held by the string of it. -/
def HoldsText (value : Json) (text : String) : Prop :=
  value = .string text

/-- The record of the two texts. -/
def HoldsBody : Json → Fields String → Prop :=
  Json.Reader.RecordHolds HoldsText ["base64", "subType"]

theorem eq_singleton_of_names {α : Type} {found : Fields α} {m : String} {x : α} (hnames : found.names = [m])
    (hx : found.find? m = some x) : found = [(m, x)] := by
  obtain ⟨⟨_, x'⟩, _, rfl, rfl, hnil⟩ := List.map_eq_cons_iff.1 hnames
  obtain rfl := List.map_eq_nil_iff.1 hnil
  simp only [Fields.find?_cons, if_true, Option.some.injEq] at hx
  rw [hx]

/-- Two fields are given by what is found under their names. -/
theorem eq_pair_of_names {α : Type} {found : Fields α} {m n : String} {x y : α} (hnames : found.names = [m, n])
    (hne : n ≠ m) (hx : found.find? m = some x) (hy : found.find? n = some y) : found = [(m, x), (n, y)] := by
  obtain ⟨⟨_, x'⟩, _, rfl, rfl, hrest⟩ := List.map_eq_cons_iff.1 hnames
  obtain ⟨⟨_, y'⟩, _, rfl, rfl, hnil⟩ := List.map_eq_cons_iff.1 hrest
  obtain rfl := List.map_eq_nil_iff.1 hnil
  simp only [Fields.find?_cons, if_true, if_neg hne, Option.some.injEq] at hx hy
  rw [hx, hy]

/-- What an object of texts holds says what the object is. -/
theorem eq_map_of_holdsText {members : Fields Json} {found : Fields String}
    (h : List.Forall₂ (fun value field => value.1 = field.1 ∧ HoldsText value.2 field.2) members found) :
    members = found.map fun field => (field.1, .string field.2) := by
  induction h with
  | nil => rfl
  | @cons value field _ _ h _ ih =>
    have hvalue : value = (field.1, .string field.2) := Prod.ext h.1 h.2
    rw [List.map_cons, ← ih, hvalue]

theorem holdsBody_iff : (∃ found, HoldsBody body found ∧ found.find? "base64" = some payload ∧
    found.find? "subType" = some subtype) ↔ BodyHolds payload subtype body := by
  constructor
  · rintro ⟨found, hholds, hpayload, hsubtype⟩
    cases hholds with
    | object hmembers hnames =>
      rw [eq_map_of_holdsText hmembers]
      rcases List.perm_pair.1 hnames with hnames | hnames
      · rw [eq_pair_of_names hnames (by decide) hpayload hsubtype]
        exact .object (.refl _)
      · rw [eq_pair_of_names hnames (by decide) hsubtype hpayload]
        exact .object (.swap _ _ _)
    | array helements hnames =>
      obtain rfl := eq_pair_of_names hnames (by decide) hpayload hsubtype
      obtain ⟨_, _, rfl, hrest, rfl⟩ := List.forall₂_cons_right_iff.1 helements
      obtain ⟨_, _, rfl, hnil, rfl⟩ := List.forall₂_cons_right_iff.1 hrest
      cases hnil
      exact .array
  · rintro (hmembers | _)
    · rcases List.perm_pair.1 hmembers with rfl | rfl
      · exact ⟨[("base64", payload), ("subType", subtype)],
          .object (.cons ⟨rfl, rfl⟩ (.cons ⟨rfl, rfl⟩ .nil)) (.refl _), rfl, rfl⟩
      · exact ⟨[("subType", subtype), ("base64", payload)],
          .object (.cons ⟨rfl, rfl⟩ (.cons ⟨rfl, rfl⟩ .nil)) (.swap _ _ _), rfl, rfl⟩
    · exact ⟨[("base64", payload), ("subType", subtype)], .array (.cons rfl (.cons rfl .nil)) rfl, rfl, rfl⟩

/-- The record of a record of the two texts. -/
def HoldsRecord : Json → Fields (Fields String) → Prop :=
  Json.Reader.RecordHolds HoldsBody ["$binary"]

theorem ofRecord?_eq_some_iff : ofRecord? record = some b ↔ ∃ found payload subtype,
    record.find? "$binary" = some found ∧ found.find? "base64" = some payload ∧
      found.find? "subType" = some subtype ∧ (ofTexts payload subtype).toOption = some b := by
  simp [ofRecord?, Option.bind_eq_some_iff]

theorem holdsRecord_iff : (∃ record, HoldsRecord value record ∧ ofRecord? record = some b) ↔
    ofJson? value = some b := by
  rw [ofJson?_eq_some_iff]
  constructor
  · rintro ⟨record, hholds, hrecord⟩
    obtain ⟨found, payload, subtype, hfound, hpayload, hsubtype, htexts⟩ := ofRecord?_eq_some_iff.1 hrecord
    refine ⟨payload, subtype, ?_, htexts⟩
    cases hholds with
    | object hmembers hnames =>
      obtain rfl := eq_singleton_of_names (List.perm_singleton.1 hnames) hfound
      obtain ⟨⟨_, _⟩, _, ⟨rfl, hbody⟩, hnil, rfl⟩ := List.forall₂_cons_right_iff.1 hmembers
      cases hnil
      exact .object (holdsBody_iff.1 ⟨found, hbody, hpayload, hsubtype⟩)
    | array helements hnames =>
      obtain rfl := eq_singleton_of_names hnames hfound
      obtain ⟨_, _, hbody, hnil, rfl⟩ := List.forall₂_cons_right_iff.1 helements
      cases hnil
      exact .array (holdsBody_iff.1 ⟨found, hbody, hpayload, hsubtype⟩)
  · rintro ⟨payload, subtype, hholds, htexts⟩
    cases hholds with
    | object hbody =>
      obtain ⟨found, hfound, hpayload, hsubtype⟩ := holdsBody_iff.2 hbody
      exact ⟨[("$binary", found)], .object (.cons ⟨rfl, hfound⟩ .nil) (.refl _),
        ofRecord?_eq_some_iff.2 ⟨found, payload, subtype, rfl, hpayload, hsubtype, htexts⟩⟩
    | array hbody =>
      obtain ⟨found, hfound, hpayload, hsubtype⟩ := holdsBody_iff.2 hbody
      exact ⟨[("$binary", found)], .array (.cons hfound .nil) rfl,
        ofRecord?_eq_some_iff.2 ⟨found, payload, subtype, rfl, hpayload, hsubtype, htexts⟩⟩

theorem reads_record? : Json.Reader.Reads Json.Written.maxLevels record? HoldsRecord :=
  Json.Reader.reads_record? (Json.Reader.reads_record? (Json.Reader.reads_text? _) (by decide)) (by decide)

theorem ofText?_eq_some_iff : ofText? text = some b ↔ ∃ value, Json.asWritten? text = some value ∧
    ofJson? value = some b := by
  simp only [ofText?, Option.bind_eq_bind, Option.bind_eq_some_iff, Prod.exists, Option.ite_none_right_eq_some,
    Json.asWritten?, Json.Written.ofText?_eq_some_iff, ← holdsRecord_iff]
  constructor
  · rintro ⟨record, rest, hread, hblank, hrecord⟩
    obtain ⟨w, value, hfront, hresolve, hholds⟩ := (reads_record? _ _ _).1 hread
    exact ⟨value, ⟨w, ⟨rest, hfront, hblank⟩, hresolve⟩, record, hholds, hrecord⟩
  · rintro ⟨value, ⟨w, ⟨rest, hfront, hblank⟩, hresolve⟩, record, hholds, hrecord⟩
    exact ⟨record, rest, (reads_record? _ _ _).2 ⟨w, value, hfront, hresolve, hholds⟩, hblank, hrecord⟩

end Records

/-- How reading a binary straight from a text compares with decoding the text first. -/
structure ReadsAlike (text : String) : Prop where
  /-- What is read straight is a text of JSON, and its decoded value gives the same binary. -/
  decoded : ∀ b, ofText? text = some b → ∃ value, Json.ofText? text = some value ∧ ofJson? value = some b
  /-- Only a repeated name is accepted by way of the decoded value and refused straight. -/
  repeated : ∀ value b, Json.ofText? text = some value → ofJson? value = some b → ofText? text = none →
    ∃ written, Json.asWritten? text = some written ∧ ∃ name ∈ fieldNames, written.Repeats name
  alike : (∀ written, Json.asWritten? text = some written → ∀ name ∈ fieldNames, ¬ written.Repeats name) →
    ofText? text = (Json.ofText? text).bind ofJson?
  /-- No name at all is repeated in what is read straight. -/
  unrepeated : ∀ written b, Json.asWritten? text = some written → ofText? text = some b →
    ∀ name, ¬ written.Repeats name

theorem ofJson?_merged (h : ofJson? value = some b) : ofJson? value.merged = some b := by
  obtain ⟨payload, subtype, hholds, htexts⟩ := ofJson?_eq_some_iff.1 h
  exact ofJson?_eq_some_iff.2 ⟨payload, subtype, hholds.merged, htexts⟩

theorem ofJson?_of_merged (h : ofJson? value.merged = some b) (hnot : ∀ name ∈ fieldNames, ¬ value.Repeats name) :
    ofJson? value = some b := by
  obtain ⟨payload, subtype, hholds, htexts⟩ := ofJson?_eq_some_iff.1 h
  exact ofJson?_eq_some_iff.2 ⟨payload, subtype, holds_of_merged hholds hnot, htexts⟩

theorem reads_alike (text : String) : ReadsAlike text where
  decoded b h := by
    obtain ⟨written, hwritten, hread⟩ := ofText?_eq_some_iff.1 h
    exact ⟨written.merged, by rw [Json.ofText?_eq_map, hwritten, Option.map_some], ofJson?_merged hread⟩
  repeated value b hvalue hread hnone := by
    rw [Json.ofText?_eq_map] at hvalue
    obtain ⟨written, hwritten, rfl⟩ := Option.map_eq_some_iff.1 hvalue
    refine ⟨written, hwritten, by_contra fun hnot => ?_⟩
    have hstraight := ofJson?_of_merged hread (by simpa using hnot)
    rw [ofText?_eq_some_iff.2 ⟨written, hwritten, hstraight⟩] at hnone
    cases hnone
  alike hnot := by
    refine Option.ext fun b => ?_
    rw [ofText?_eq_some_iff, Json.ofText?_eq_map, Option.bind_map, Option.bind_eq_some_iff]
    refine exists_congr fun written => and_congr_right fun hwritten => ?_
    exact ⟨ofJson?_merged, fun h => ofJson?_of_merged h (hnot written hwritten)⟩
  unrepeated written b hwritten h name := by
    obtain ⟨written', hwritten', hread⟩ := ofText?_eq_some_iff.1 h
    obtain rfl := Option.some_inj.1 (hwritten.symm.trans hwritten')
    obtain ⟨payload, subtype, hholds, -⟩ := ofJson?_eq_some_iff.1 hread
    exact hholds.not_repeats

/-- An escape in a repeated name hides nothing. -/
example : ofText? "[\x7b\"base64\":\"AQ==\",\"subType\":\"6\",\"base\\u00364\":\"\"\x7d]" = none ∧
    (Json.ofText? "[\x7b\"base64\":\"AQ==\",\"subType\":\"6\",\"base\\u00364\":\"\"\x7d]").bind ofJson? =
      some ⟨6, []⟩ := by
  constructor
  · cbv
  · decide +kernel

end Binary

end FieldSeal
