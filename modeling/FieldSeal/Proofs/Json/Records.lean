import Mathlib.Data.List.Forall2
import FieldSeal.Json.Record
import FieldSeal.Proofs.Json.Fuel

/-!
Reading a record straight from a text, compared with reading a value and taking the record out of it. Both walk over
the same characters: where one of them succeeds the other one does, and leaves the same rest.
-/

namespace FieldSeal.Json

section Lists

variable {α β : Type} {close : Char} {cs rest : List Char} {as : List α}

/-- Items with a comma between any two of them up to a closing character, at least one. -/
inductive Listed (item : List Char → α → List Char → Prop) (close : Char) :
    List Char → List α → List Char → Prop where
  | last {cs r rest : List Char} {a : α} (hitem : item cs a r) (hclose : Reader.skipBlank r = close :: rest) :
      Listed item close cs [a] rest
  | more {cs r r' rest : List Char} {a : α} {as : List α} (hitem : item cs a r)
      (hcomma : Reader.skipBlank r = ',' :: r') (hrest : Listed item close r' as rest) :
      Listed item close cs (a :: as) rest

/-- Lists go together where their items do. -/
theorem listed_iff_exists {item : List Char → α → List Char → Prop} {other : List Char → β → List Char → Prop}
    {R : β → α → Prop} (h : ∀ cs a rest, item cs a rest ↔ ∃ b, other cs b rest ∧ R b a) :
    Listed item close cs as rest ↔ ∃ bs, Listed other close cs bs rest ∧ List.Forall₂ R bs as := by
  constructor
  · intro hlisted
    induction hlisted with
    | last hitem hclose =>
      obtain ⟨b, hother, hR⟩ := (h _ _ _).1 hitem
      exact ⟨[b], .last hother hclose, .cons hR .nil⟩
    | more hitem hcomma _ ih =>
      obtain ⟨b, hother, hR⟩ := (h _ _ _).1 hitem
      obtain ⟨bs, hothers, hforall⟩ := ih
      exact ⟨b :: bs, .more hother hcomma hothers, .cons hR hforall⟩
  · rintro ⟨bs, hlisted, hforall⟩
    induction hlisted generalizing as with
    | last hother hclose =>
      obtain ⟨a, _, hR, hnil, rfl⟩ := List.forall₂_cons_left_iff.1 hforall
      cases hnil
      exact .last ((h _ _ _).2 ⟨_, hother, hR⟩) hclose
    | more hother hcomma _ ih =>
      obtain ⟨a, as', hR, hrest, rfl⟩ := List.forall₂_cons_left_iff.1 hforall
      exact .more ((h _ _ _).2 ⟨_, hother, hR⟩) hcomma (ih hrest)

/-- Fuel apart, a reader of lists reads a list of what its reader of items reads. -/
theorem exists_read_iff {item : Nat → List Char → Option (α × List Char)}
    {read : Nat → List Char → Option (List α × List Char)} (h : Reader.TakesItems item read close)
    (hitem : ∀ fuel, Reader.Settled item 1 fuel) (hread : ∀ fuel, Reader.Settled read 2 fuel) :
    (∃ fuel, read fuel cs = some (as, rest)) ↔
      Listed (fun cs a rest => ∃ fuel, item fuel cs = some (a, rest)) close cs as rest := by
  constructor
  · rintro ⟨fuel, hlist⟩
    induction fuel generalizing cs as with
    | zero => cases (h.zero cs).symm.trans hlist
    | succ fuel ih =>
      obtain ⟨a, r, ha, ⟨hclose, rfl⟩ | ⟨r', hcomma, others, hothers, rfl⟩⟩ := h.succ.1 hlist
      · exact .last ⟨fuel, ha⟩ hclose
      · exact .more ⟨fuel, ha⟩ hcomma (ih hothers)
  · intro hlisted
    induction hlisted with
    | last hitem' hclose =>
      obtain ⟨fuel, ha⟩ := hitem'
      exact ⟨fuel + 1, h.succ.2 ⟨_, _, ha, .inl ⟨hclose, rfl⟩⟩⟩
    | @more cs r r' rest a others hitem' hcomma _ ih =>
      obtain ⟨fuel, ha⟩ := hitem'
      obtain ⟨fuel', hothers⟩ := ih
      -- one fuel for the first item and for those behind it
      have ha := (hitem fuel).steady ha (2 * cs.length + 1 + (2 * r'.length + 2)) (by omega)
      have hothers := (hread fuel').steady hothers (2 * cs.length + 1 + (2 * r'.length + 2)) (by omega)
      exact ⟨_, h.succ.2 ⟨a, r, ha, .inr ⟨r', hcomma, others, hothers, rfl⟩⟩⟩

end Lists

namespace Written

/-- The value stands at the front of a text. -/
def Front (cs : List Char) (w : Written) (rest : List Char) : Prop :=
  ∃ fuel, Reader.value? fuel cs = some (w, rest)

/-- A member stands at the front of a text. -/
def MemberFront (cs : List Char) (m : List Piece × Written) (rest : List Char) : Prop :=
  ∃ fuel, Reader.member? fuel cs = some (m, rest)

variable {cs r rest : List Char} {w : Written} {elements : List Written} {members : List (List Piece × Written)}

theorem Front.value?_eq (h : Front cs w rest) {n : Nat} (hn : 2 * cs.length + 1 ≤ n) :
    Reader.value? n cs = some (w, rest) := by
  obtain ⟨fuel, hread⟩ := h
  exact (Reader.settled fuel).1.steady hread n hn

theorem ofText?_eq_some_iff {text : String} :
    ofText? text = some w ↔ ∃ rest, Front text.toList w rest ∧ Reader.skipBlank rest = [] := by
  unfold ofText?
  constructor
  · intro h
    dsimp only at h
    split at h
    · next w' rest hread =>
      split at h
      · next hblank =>
        cases h
        exact ⟨rest, ⟨_, hread⟩, hblank⟩
      · cases h
    · cases h
  · rintro ⟨rest, hfront, hblank⟩
    dsimp only
    rw [hfront.value?_eq (by omega)]
    simp only [hblank, if_true]

theorem memberFront_iff {m : List Piece × Written} :
    MemberFront cs m rest ↔ ∃ r, Reader.memberName? cs = some (m.1, r) ∧ Front r m.2 rest := by
  simp only [MemberFront, Front, Reader.member?_eq_some_iff, ← exists_and_left]
  exact exists_comm

theorem exists_elements?_iff :
    (∃ fuel, Reader.elements? fuel cs = some (elements, rest)) ↔ Listed Front ']' cs elements rest :=
  exists_read_iff Reader.takesItems_elements? (fun fuel => (Reader.settled fuel).1)
    fun fuel => (Reader.settled fuel).2.1

theorem exists_members?_iff :
    (∃ fuel, Reader.members? fuel cs = some (members, rest)) ↔ Listed MemberFront '}' cs members rest :=
  exists_read_iff Reader.takesItems_members? (fun fuel => (Reader.settled fuel).1.member?)
    fun fuel => (Reader.settled fuel).2.2

/-- The character that a string, an array or an object begins with. -/
def opener? : Written → Option Char
  | .string _ => some '"'
  | .array _ => some '['
  | .object _ => some '{'
  | _ => none

theorem Front.exists_opener {c : Char} (h : Front cs w rest) (hc : w.opener? = some c) :
    ∃ r, Reader.skipBlank cs = c :: r := by
  obtain ⟨_ | fuel, h⟩ := h
  · cases h
  · simp only [Reader.value?] at h
    split at h
    · cases h
      cases hc
    · cases h
      cases hc
    · cases h
      cases hc
    · next hquote =>
      obtain ⟨_, _, h⟩ := Option.map_eq_some_iff.1 h
      cases h
      cases hc
      exact ⟨_, hquote⟩
    · next hbracket =>
      have hw : ∃ elements, w = .array elements := by
        split at h
        · cases h
          exact ⟨_, rfl⟩
        · obtain ⟨_, _, h⟩ := Option.map_eq_some_iff.1 h
          cases h
          exact ⟨_, rfl⟩
      obtain ⟨elements, rfl⟩ := hw
      cases hc
      exact ⟨_, hbracket⟩
    · next hbrace =>
      have hw : ∃ members, w = .object members := by
        split at h
        · cases h
          exact ⟨_, rfl⟩
        · obtain ⟨_, _, h⟩ := Option.map_eq_some_iff.1 h
          cases h
          exact ⟨_, rfl⟩
      obtain ⟨members, rfl⟩ := hw
      cases hc
      exact ⟨_, hbrace⟩
    · obtain ⟨_, _, h⟩ := Option.map_eq_some_iff.1 h
      cases h
      cases hc

theorem front_string_iff {pieces : List Piece} : Front cs (.string pieces) rest ↔
    ∃ r, Reader.skipBlank cs = '"' :: r ∧ Reader.string? r = some (pieces, rest) := by
  constructor
  · intro h
    obtain ⟨r, hr⟩ := h.exists_opener rfl
    have hread := h.value?_eq (n := 2 * cs.length + 1) le_rfl
    simp only [Reader.value?, hr, Option.map_eq_some_iff, Prod.exists, Prod.mk.injEq, string.injEq] at hread
    obtain ⟨_, _, hstring, rfl, rfl⟩ := hread
    exact ⟨r, hr, hstring⟩
  · rintro ⟨r, hr, hstring⟩
    exact ⟨1, by simp only [Reader.value?, hr, hstring, Option.map_some]⟩

theorem front_array_iff : Front cs (.array elements) rest ↔ ∃ r, Reader.skipBlank cs = '[' :: r ∧
    (Reader.skipBlank r = ']' :: rest ∧ elements = [] ∨ Listed Front ']' r elements rest) := by
  constructor
  · intro h
    obtain ⟨r, hr⟩ := h.exists_opener rfl
    have hread := h.value?_eq (n := 2 * cs.length + 1) le_rfl
    rcases (Reader.value?_of_array hr).1 hread with ⟨hclose, hw⟩ | ⟨elements', helements, hw⟩
    · cases hw
      exact ⟨r, hr, .inl ⟨hclose, rfl⟩⟩
    · cases hw
      exact ⟨r, hr, .inr (exists_elements?_iff.1 ⟨_, helements⟩)⟩
  · rintro ⟨r, hr, ⟨hclose, rfl⟩ | hlisted⟩
    · exact ⟨1, (Reader.value?_of_array hr).2 (.inl ⟨hclose, rfl⟩)⟩
    · obtain ⟨fuel, helements⟩ := exists_elements?_iff.2 hlisted
      exact ⟨fuel + 1, (Reader.value?_of_array hr).2 (.inr ⟨elements, helements, rfl⟩)⟩

theorem front_object_iff : Front cs (.object members) rest ↔ ∃ r, Reader.skipBlank cs = '{' :: r ∧
    (Reader.skipBlank r = '}' :: rest ∧ members = [] ∨ Listed MemberFront '}' r members rest) := by
  constructor
  · intro h
    obtain ⟨r, hr⟩ := h.exists_opener rfl
    have hread := h.value?_eq (n := 2 * cs.length + 1) le_rfl
    rcases (Reader.value?_of_object hr).1 hread with ⟨hclose, hw⟩ | ⟨members', hmembers, hw⟩
    · cases hw
      exact ⟨r, hr, .inl ⟨hclose, rfl⟩⟩
    · cases hw
      exact ⟨r, hr, .inr (exists_members?_iff.1 ⟨_, hmembers⟩)⟩
  · rintro ⟨r, hr, ⟨hclose, rfl⟩ | hlisted⟩
    · exact ⟨1, (Reader.value?_of_object hr).2 (.inl ⟨hclose, rfl⟩)⟩
    · obtain ⟨fuel, hmembers⟩ := exists_members?_iff.2 hlisted
      exact ⟨fuel + 1, (Reader.value?_of_object hr).2 (.inr ⟨members, hmembers, rfl⟩)⟩

section Resolving

variable {levels : Nat} {value : Json} {text : String} {values : List Json} {fields : Fields Json}

theorem resolveElements?_eq_some_iff : resolveElements? levels elements = some values ↔
    List.Forall₂ (fun w value => resolveWithin? levels w = some value) elements values := by
  induction elements generalizing values with
  | nil => simp [resolveElements?, eq_comm]
  | cons w rest ih =>
    simp only [resolveElements?, Option.bind_eq_bind, Option.bind_eq_some_iff, Option.some.injEq, ih,
      List.forall₂_cons_left_iff]
    constructor
    · rintro ⟨value, hvalue, values, hvalues, rfl⟩
      exact ⟨value, values, hvalue, hvalues, rfl⟩
    · rintro ⟨value, values, hvalue, hvalues, rfl⟩
      exact ⟨value, hvalue, values, hvalues, rfl⟩

theorem resolveMembers?_eq_some_iff : resolveMembers? levels members = some fields ↔
    List.Forall₂ (fun m field => Piece.text? m.1 = some field.1 ∧ resolveWithin? levels m.2 = some field.2)
      members fields := by
  induction members generalizing fields with
  | nil => simp [resolveMembers?, eq_comm]
  | cons m rest ih =>
    simp only [resolveMembers?, Option.bind_eq_bind, Option.bind_eq_some_iff, Option.some.injEq, ih,
      List.forall₂_cons_left_iff]
    constructor
    · rintro ⟨name, hname, value, hvalue, fields, hfields, rfl⟩
      exact ⟨(name, value), fields, ⟨hname, hvalue⟩, hfields, rfl⟩
    · rintro ⟨⟨name, value⟩, fields, ⟨hname, hvalue⟩, hfields, rfl⟩
      exact ⟨name, hname, value, hvalue, fields, hfields, rfl⟩

theorem resolveWithin?_eq_string_iff : resolveWithin? levels w = some (.string text) ↔
    ∃ pieces, w = .string pieces ∧ Piece.text? pieces = some text := by
  cases w <;> simp [resolveWithin?]

theorem resolveWithin?_eq_array_iff : resolveWithin? (levels + 1) w = some (.array values) ↔
    ∃ elements, w = .array elements ∧ resolveElements? levels elements = some values := by
  cases w <;> simp [resolveWithin?]

theorem resolveWithin?_eq_object_iff : resolveWithin? (levels + 1) w = some (.object fields) ↔
    ∃ members, w = .object members ∧ resolveMembers? levels members = some fields := by
  cases w <;> simp [resolveWithin?]

end Resolving

end Written

namespace Reader

variable {α : Type} {part : Part α} {holds : Json → α → Prop} {levels : Nat} {cs rest : List Char}
  {missing names : List String} {found : Fields α}

/-- The part reads what a value at the front of the text, of at most so many levels, holds. -/
def Reads (levels : Nat) (part : Part α) (holds : Json → α → Prop) : Prop :=
  ∀ cs a rest, part cs = some (a, rest) ↔
    ∃ w value, Written.Front cs w rest ∧ Written.resolveWithin? levels w = some value ∧ holds value a

theorem reads_text? (levels : Nat) : Reads levels text? fun value text => value = .string text := by
  intro cs text rest
  constructor
  · intro h
    unfold text? at h
    split at h
    · next r hquote =>
      simp only [Option.bind_eq_bind, Option.bind_eq_some_iff, Prod.exists] at h
      obtain ⟨pieces, r', hstring, text', htext, h⟩ := h
      cases h
      exact ⟨.string pieces, .string text, Written.front_string_iff.2 ⟨r, hquote, hstring⟩,
        Written.resolveWithin?_eq_string_iff.2 ⟨pieces, rfl, htext⟩, rfl⟩
    · cases h
  · rintro ⟨w, value, hfront, hresolve, rfl⟩
    obtain ⟨pieces, rfl, htext⟩ := Written.resolveWithin?_eq_string_iff.1 hresolve
    obtain ⟨r, hquote, hstring⟩ := Written.front_string_iff.1 hfront
    simp [text?, hquote, hstring, htext]

theorem memberText?_eq_some_iff {name : String} : memberText? cs = some (name, rest) ↔
    ∃ pieces, memberName? cs = some (pieces, rest) ∧ Piece.text? pieces = some name := by
  simp [memberText?, Option.bind_eq_some_iff]

section Members

/-- A name and what the part reads behind it. -/
def FieldFront (part : Part α) (cs : List Char) (field : String × α) (rest : List Char) : Prop :=
  ∃ r, memberText? cs = some (field.1, r) ∧ part r = some (field.2, rest)

theorem recordMembers?_iff_step : recordMembers? part missing cs = some (found, rest) ↔
    ∃ name value r, FieldFront part cs (name, value) r ∧ name ∈ missing ∧
      (skipBlank r = '}' :: rest ∧ missing.erase name = [] ∧ [(name, value)] = found ∨
        ∃ r', skipBlank r = ',' :: r' ∧ ∃ others,
          recordMembers? part (missing.erase name) r' = some (others, rest) ∧ (name, value) :: others = found) := by
  simp only [recordMembers?.eq_def part missing, Option.bind_eq_bind, Option.bind_eq_some_iff, Prod.exists]
  constructor
  · rintro ⟨name, r, hname, h⟩
    obtain ⟨hmissing, h⟩ := Option.ite_none_right_eq_some.1 h
    obtain ⟨⟨value, r'⟩, hread, h⟩ := Option.bind_eq_some_iff.1 h
    refine ⟨name, value, r', ⟨r, hname, hread⟩, hmissing, ?_⟩
    split at h
    · next r'' hcomma =>
      obtain ⟨⟨others, _⟩, hothers, h⟩ := Option.bind_eq_some_iff.1 h
      cases h
      exact .inr ⟨r'', hcomma, others, hothers, rfl⟩
    · next hclose =>
      obtain ⟨hnone, h⟩ := Option.ite_none_right_eq_some.1 h
      cases h
      exact .inl ⟨hclose, hnone, rfl⟩
    · cases h
  · rintro ⟨name, value, r', ⟨r, hname, hread⟩, hmissing, ⟨hclose, hnone, rfl⟩ | ⟨r'', hcomma, others, hothers, rfl⟩⟩
    · exact ⟨name, r, hname, by simp [hmissing, hread, hclose, hnone]⟩
    · exact ⟨name, r, hname, by simp [hmissing, hread, hcomma, hothers]⟩

theorem recordMembers?_eq_some_iff : recordMembers? part missing cs = some (found, rest) ↔
    Listed (FieldFront part) '}' cs found rest ∧ found.names.Perm missing := by
  constructor
  · intro h
    -- what is found in front takes its name out of those that may come behind it
    induction found generalizing cs missing with
    | nil =>
      obtain ⟨name, value, r, hfield, hname, ⟨-, -, hfound⟩ | ⟨_, _, _, _, hfound⟩⟩ := recordMembers?_iff_step.1 h
      · cases hfound
      · cases hfound
    | cons field others ih =>
      obtain ⟨name, value, r, hfield, hname, ⟨hclose, hmissing, hfound⟩ | ⟨r', hcomma, others', hothers, hfound⟩⟩ :=
        recordMembers?_iff_step.1 h
      · cases hfound
        exact ⟨.last hfield hclose, List.cons_perm_iff_perm_erase.2 ⟨hname, .of_eq hmissing.symm⟩⟩
      · cases hfound
        obtain ⟨hlisted, hperm⟩ := ih hothers
        exact ⟨.more hfield hcomma hlisted, List.cons_perm_iff_perm_erase.2 ⟨hname, hperm⟩⟩
  · rintro ⟨hlisted, hperm⟩
    induction hlisted generalizing missing with
    | last hfield hclose =>
      obtain ⟨hname, hmissing⟩ := List.cons_perm_iff_perm_erase.1 hperm
      exact recordMembers?_iff_step.2 ⟨_, _, _, hfield, hname, .inl ⟨hclose, hmissing.nil_eq.symm, rfl⟩⟩
    | more hfield hcomma _ ih =>
      obtain ⟨hname, hmissing⟩ := List.cons_perm_iff_perm_erase.1 hperm
      exact recordMembers?_iff_step.2 ⟨_, _, _, hfield, hname, .inr ⟨_, hcomma, _, ih hmissing, rfl⟩⟩

end Members

section Elements

theorem recordElements?_eq_some_iff : recordElements? part names cs = some (found, rest) ↔
    Listed (fun cs field rest => part cs = some (field.2, rest)) ']' cs found rest ∧ found.names = names := by
  induction names generalizing cs found with
  | nil =>
    constructor
    · intro h
      cases h
    · rintro ⟨hlisted, hnames⟩
      cases hlisted <;> cases hnames
  | cons name names ih =>
    simp only [recordElements?, Option.bind_eq_bind, Option.bind_eq_some_iff, Prod.exists]
    constructor
    · rintro ⟨value, r, hread, h⟩
      split at h
      · next r' hcomma =>
        simp only [Option.bind_eq_some_iff, Prod.exists] at h
        obtain ⟨others, _, hothers, h⟩ := h
        cases h
        obtain ⟨hlisted, rfl⟩ := ih.1 hothers
        exact ⟨.more hread hcomma hlisted, rfl⟩
      · next hclose =>
        obtain ⟨rfl, h⟩ := Option.ite_none_right_eq_some.1 h
        cases h
        exact ⟨.last hread hclose, rfl⟩
      · cases h
    · rintro ⟨hlisted, hnames⟩
      cases hlisted with
      | last hread hclose =>
        cases hnames
        exact ⟨_, _, hread, by simp [hclose]⟩
      | more hread hcomma hrest =>
        cases hnames
        exact ⟨_, _, hread, by simp [hcomma, ih.2 ⟨hrest, rfl⟩]⟩

end Elements

section Values

variable {elements : List Written} {members : List (List Piece × Written)} {fields : List String}

/-- The members of a record are those of an object with the same names and what they hold. -/
theorem listed_fieldFront_iff (hpart : Reads levels part holds) : Listed (FieldFront part) '}' cs found rest ↔
    ∃ members values, Listed Written.MemberFront '}' cs members rest ∧
      Written.resolveMembers? levels members = some values ∧
        List.Forall₂ (fun value field => value.1 = field.1 ∧ holds value.2 field.2) values found := by
  have hfield cs (field : String × α) rest : FieldFront part cs field rest ↔ ∃ value : String × Json,
      (∃ m, Written.MemberFront cs m rest ∧
        (Piece.text? m.1 = some value.1 ∧ Written.resolveWithin? levels m.2 = some value.2)) ∧
          (value.1 = field.1 ∧ holds value.2 field.2) := by
    constructor
    · rintro ⟨r, hname, hread⟩
      obtain ⟨w, value, hfront, hresolve, hholds⟩ := (hpart r field.2 rest).1 hread
      obtain ⟨pieces, hpieces, htext⟩ := memberText?_eq_some_iff.1 hname
      have hmember := Written.memberFront_iff (m := (pieces, w)).2 ⟨r, hpieces, hfront⟩
      exact ⟨(field.1, value), ⟨(pieces, w), hmember, htext, hresolve⟩, rfl, hholds⟩
    · rintro ⟨value, ⟨m, hmember, htext, hresolve⟩, hname, hholds⟩
      obtain ⟨r, hpieces, hfront⟩ := Written.memberFront_iff.1 hmember
      exact ⟨r, memberText?_eq_some_iff.2 ⟨m.1, hpieces, hname ▸ htext⟩,
        (hpart r field.2 rest).2 ⟨m.2, value.2, hfront, hresolve, hholds⟩⟩
  rw [listed_iff_exists hfield]
  simp only [listed_iff_exists fun _ _ _ => Iff.rfl, ← Written.resolveMembers?_eq_some_iff]
  constructor
  · rintro ⟨values, ⟨members, hlisted, hresolve⟩, hholds⟩
    exact ⟨members, values, hlisted, hresolve, hholds⟩
  · rintro ⟨members, values, hlisted, hresolve, hholds⟩
    exact ⟨values, ⟨members, hlisted, hresolve⟩, hholds⟩

theorem listed_part_iff (hpart : Reads levels part holds) :
    Listed (fun cs (field : String × α) rest => part cs = some (field.2, rest)) ']' cs found rest ↔
      ∃ elements values, Listed Written.Front ']' cs elements rest ∧
        Written.resolveElements? levels elements = some values ∧
          List.Forall₂ (fun value field => holds value field.2) values found := by
  have hfield cs (field : String × α) rest : part cs = some (field.2, rest) ↔ ∃ value,
      (∃ w, Written.Front cs w rest ∧ Written.resolveWithin? levels w = some value) ∧ holds value field.2 := by
    rw [hpart]
    constructor
    · rintro ⟨w, value, hfront, hresolve, hholds⟩
      exact ⟨value, ⟨w, hfront, hresolve⟩, hholds⟩
    · rintro ⟨value, ⟨w, hfront, hresolve⟩, hholds⟩
      exact ⟨w, value, hfront, hresolve, hholds⟩
  rw [listed_iff_exists hfield]
  simp only [listed_iff_exists fun _ _ _ => Iff.rfl, ← Written.resolveElements?_eq_some_iff]
  constructor
  · rintro ⟨values, ⟨elements, hlisted, hresolve⟩, hholds⟩
    exact ⟨elements, values, hlisted, hresolve, hholds⟩
  · rintro ⟨elements, values, hlisted, hresolve, hholds⟩
    exact ⟨values, ⟨elements, hlisted, hresolve⟩, hholds⟩

/-- The value is an object with each of the fields once, in any order, or an array with a value for each of them. -/
inductive RecordHolds (holds : Json → α → Prop) (fields : List String) : Json → Fields α → Prop where
  | object {members : Fields Json} {found : Fields α}
      (hmembers : List.Forall₂ (fun value field => value.1 = field.1 ∧ holds value.2 field.2) members found)
      (hnames : found.names.Perm fields) : RecordHolds holds fields (.object members) found
  | array {elements : List Json} {found : Fields α}
      (helements : List.Forall₂ (fun value field => holds value field.2) elements found)
      (hnames : found.names = fields) : RecordHolds holds fields (.array elements) found

/-- A record of parts reads what a value holds that is one level deeper. -/
theorem reads_record? (hpart : Reads levels part holds) (hfields : fields ≠ []) :
    Reads (levels + 1) (record? part fields) (RecordHolds holds fields) := by
  intro cs found rest
  constructor
  · intro h
    unfold record? at h
    split at h
    · next r hbrace =>
      obtain ⟨hlisted, hnames⟩ := recordMembers?_eq_some_iff.1 h
      obtain ⟨members, values, hlisted, hresolve, hholds⟩ := (listed_fieldFront_iff hpart).1 hlisted
      exact ⟨.object members, .object values, Written.front_object_iff.2 ⟨r, hbrace, .inr hlisted⟩,
        Written.resolveWithin?_eq_object_iff.2 ⟨members, rfl, hresolve⟩, .object hholds hnames⟩
    · next r hbracket =>
      obtain ⟨hlisted, hnames⟩ := recordElements?_eq_some_iff.1 h
      obtain ⟨elements, values, hlisted, hresolve, hholds⟩ := (listed_part_iff hpart).1 hlisted
      exact ⟨.array elements, .array values, Written.front_array_iff.2 ⟨r, hbracket, .inr hlisted⟩,
        Written.resolveWithin?_eq_array_iff.2 ⟨elements, rfl, hresolve⟩, .array hholds hnames⟩
    · cases h
  · rintro ⟨w, value, hfront, hresolve, hholds⟩
    cases hholds with
    | object hmembers hnames =>
      obtain ⟨members, rfl, hvalues⟩ := Written.resolveWithin?_eq_object_iff.1 hresolve
      obtain ⟨r, hbrace, ⟨-, rfl⟩ | hlisted⟩ := Written.front_object_iff.1 hfront
      · cases hvalues
        cases hmembers
        exact absurd hnames.nil_eq.symm hfields
      · have hread := recordMembers?_eq_some_iff.2
          ⟨(listed_fieldFront_iff hpart).2 ⟨members, _, hlisted, hvalues, hmembers⟩, hnames⟩
        simp only [record?, hbrace, hread]
    | array helements hnames =>
      obtain ⟨elements, rfl, hvalues⟩ := Written.resolveWithin?_eq_array_iff.1 hresolve
      obtain ⟨r, hbracket, ⟨-, rfl⟩ | hlisted⟩ := Written.front_array_iff.1 hfront
      · cases hvalues
        cases helements
        exact absurd hnames.symm hfields
      · have hread := recordElements?_eq_some_iff.2
          ⟨(listed_part_iff hpart).2 ⟨elements, _, hlisted, hvalues, helements⟩, hnames⟩
        simp only [record?, hbracket, hread]

end Values

end Reader

end FieldSeal.Json
