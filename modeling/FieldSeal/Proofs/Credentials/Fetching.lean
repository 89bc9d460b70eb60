import FieldSeal.Proofs.Credentials.Assembling
import FieldSeal.Proofs.Interaction.CallsOf

/-!
Runs of a credential fetch. Whatever the order in which the suppliers are visited, those of eligible providers are asked
once each, up to the first that fails, and the document is the one in which each provider is settled.
-/

namespace FieldSeal

open FieldSeal.Action FieldSeal.Trace

namespace Event

/-- The supplier that a call asks. -/
def supplier? : Event → Option String
  | .service (.supply supplier) _ => some supplier
  | _ => none

/-- A supplier is asked and does not fail. -/
def IsSupplied (e : Event) : Prop :=
  ∃ supplier reply, e = .service (.supply supplier) (some (.ok reply))

end Event

namespace Credentials

variable {σ : Type} {setting : Setting σ} {supplied : String → Option Document} {doc : Document}
  {asked order : List (String × String)} {t : List Event} {ending : Ending ClientError Document}

/-- Calls of suppliers that are all answered, with the answers for their providers. -/
def answered (answers : String → Except Fault (Option Document)) (asked : List (String × String)) : List Event :=
  asked.map fun entry => .service (.supply entry.2) (some (answers entry.1))

theorem answered_congr {answers answers' : String → Except Fault (Option Document)}
    (h : ∀ entry ∈ asked, answers entry.1 = answers' entry.1) : answered answers asked = answered answers' asked :=
  List.map_congr_left fun entry hentry => by rw [h entry hentry]

theorem map_supplier?_answered (answers : String → Except Fault (Option Document)) (asked : List (String × String)) :
    (answered answers asked).map Event.supplier? = asked.map fun entry => some entry.2 := by
  rw [answered, List.map_map]
  rfl

section Fetched

/-- The runs of a fetch onto a document: all that are to be asked answer, or the first that does not ends the
fetch. -/
inductive Fetched (supplied : String → Option Document) (doc : Document) :
    List (String × String) → List Event → Ending ClientError Document → Prop where
  | assembled (asked : List (String × String)) :
      Fetched supplied doc asked (answered (Except.ok ∘ supplied) asked) (.done (overlay supplied asked doc))
  | failed (earlier : List (String × String)) (entry : String × String) (rest : List (String × String))
      (cause : Fault) :
      Fetched supplied doc (earlier ++ entry :: rest)
        (answered (Except.ok ∘ supplied) earlier ++ [.service (.supply entry.2) (some (.error cause))])
        (.failed (.credentials entry.1 cause))
  | cut (earlier : List (String × String)) (entry : String × String) (rest : List (String × String)) :
      Fetched supplied doc (earlier ++ entry :: rest)
        (answered (Except.ok ∘ supplied) earlier ++ [.service (.supply entry.2) none]) .expired

/-- What is supplied for providers that are not asked for does not matter. -/
theorem Fetched.congr {supplied' : String → Option Document} (h : Fetched supplied doc asked t ending)
    (hsame : ∀ entry ∈ asked, supplied entry.1 = supplied' entry.1) : Fetched supplied' doc asked t ending := by
  have hanswers : ∀ earlier : List (String × String), (∀ entry ∈ earlier, entry ∈ asked) →
      answered (Except.ok ∘ supplied) earlier = answered (Except.ok ∘ supplied') earlier :=
    fun earlier hearlier => answered_congr fun entry hentry => congrArg Except.ok (hsame entry (hearlier entry hentry))
  cases h with
  | assembled asked =>
    rw [hanswers asked fun _ => id, overlay_congr hsame]
    exact .assembled asked
  | failed earlier entry rest cause =>
    rw [hanswers earlier fun _ => List.mem_append_left _]
    exact .failed earlier entry rest cause
  | cut earlier entry rest =>
    rw [hanswers earlier fun _ => List.mem_append_left _]
    exact .cut earlier entry rest

/-- An answer in front of the rest of a fetch. -/
theorem Fetched.cons {entry : String × String} (hnew : entry.1 ∉ asked.map Prod.fst) (reply : Option Document)
    (h : Fetched supplied (put entry.1 reply doc) asked t ending) :
    ∃ supplied', Fetched supplied' doc (entry :: asked)
      (.service (.supply entry.2) (some (.ok reply)) :: t) ending := by
  -- the reply is what is supplied for the new provider, and nothing changes for the others
  let supplied' : String → Option Document := fun provider => if provider = entry.1 then reply else supplied provider
  have hreply : supplied' entry.1 = reply := if_pos rfl
  have hsame : ∀ other ∈ asked, supplied other.1 = supplied' other.1 := by
    intro other hother
    have hne : other.1 ≠ entry.1 := fun heq => hnew (heq ▸ List.mem_map_of_mem hother)
    exact (if_neg hne).symm
  refine ⟨supplied', ?_⟩
  have hevent : Event.service (.supply entry.2) (some (.ok reply)) =
      .service (.supply entry.2) (some ((Except.ok ∘ supplied') entry.1)) := by rw [Function.comp_apply, hreply]
  rw [hevent]
  rw [← hreply] at h
  cases h.congr hsame with
  | assembled asked => exact .assembled (entry :: asked)
  | failed earlier other rest cause => exact .failed (entry :: earlier) other rest cause
  | cut earlier other rest => exact .cut (entry :: earlier) other rest

/-- Suppliers are asked if their providers have no properties at the start: no provider comes twice, and what is put
in for one leaves the others as they are. -/
theorem yields_fetched (order : List (String × String)) (hnodup : (order.map Prod.fst).Nodup) (doc : Document) :
    Yields setting (fetchFrom order doc) fun t ending =>
      ∃ supplied, Fetched supplied doc (order.filter fun entry => !hasProperties doc entry.1) t ending := by
  induction order generalizing doc with
  | nil => exact yields_pure ⟨fun _ => none, .assembled []⟩
  | cons entry rest ih =>
    obtain ⟨provider, supplier⟩ := entry
    obtain ⟨hnew, hrest⟩ := List.nodup_cons.1 hnodup
    unfold fetchFrom
    by_cases hproperties : hasProperties doc provider = true
    · rw [if_pos hproperties, List.filter_cons_of_neg (by simp [hproperties])]
      exact ih hrest doc
    · rw [if_neg hproperties, List.filter_cons_of_pos (by simp [hproperties])]
      have hother : ∀ entry ∈ rest, entry.1 ≠ provider := by
        intro entry hentry heq
        have hmem : entry.1 ∈ rest.map Prod.fst := List.mem_map_of_mem hentry
        rw [heq] at hmem
        exact hnew hmem
      refine yields_await ⟨fun _ => none, .cut [] (provider, supplier) _⟩ fun answer => ?_
      cases answer with
      | error cause => exact yields_fail ⟨fun _ => none, .failed [] (provider, supplier) _ cause⟩
      | ok reply =>
        have hcontinue : Yields setting (fetchFrom rest (put provider reply doc)) fun t ending =>
            ∃ supplied, Fetched supplied doc
              ((provider, supplier) :: rest.filter fun entry => !hasProperties doc entry.1)
              (.service (.supply supplier) (some (.ok reply)) :: t) ending := by
          refine (ih hrest (put provider reply doc)).mono fun t ending h => ?_
          obtain ⟨supplied, h⟩ := h
          -- what is put in decides nothing about the suppliers that are still to be visited
          have hfilter : (rest.filter fun entry => !hasProperties (put provider reply doc) entry.1) =
              rest.filter fun entry => !hasProperties doc entry.1 :=
            List.filter_congr fun entry hentry => by rw [hasProperties_put (hother entry hentry)]
          rw [hfilter] at h
          exact h.cons (fun hmem => hnew ((List.filter_sublist.map Prod.fst).subset hmem)) reply
        cases reply with
        | none => exact hcontinue
        | some properties => exact hcontinue

theorem yields_fetchInOrder (c : Credentials) (setting : Setting σ) (horder : order.Perm c.suppliers.entries) :
    Yields setting (c.fetchInOrder order) fun t ending =>
      ∃ supplied, Fetched supplied c.staticDocument (c.eligible order) t ending := by
  refine (yields_fetched order (c.nodup_order horder) c.staticDocument).mono fun t ending h => ?_
  have hfilter : (order.filter fun entry => !hasProperties c.staticDocument entry.1) = c.eligible order :=
    List.filter_congr fun entry _ => by rw [hasProperties_staticDocument, Bool.not_not]
  rwa [hfilter] at h

/-- The last supplier that is asked is found from the number of calls. -/
theorem eq_of_answered {answers : String → Except Fault (Option Document)} {earlier rest : List (String × String)}
    {entry : String × String} {e : Event} (hasked : asked <+: earlier ++ entry :: rest)
    (ht : answered (Except.ok ∘ supplied) earlier ++ [e] = answered answers asked) :
    asked = earlier ++ [entry] ∧ e = .service (.supply entry.2) (some (answers entry.1)) := by
  have hlength : asked.length = (earlier ++ [entry]).length := by
    simpa [answered] using (congrArg List.length ht).symm
  have hstart : earlier ++ [entry] <+: earlier ++ entry :: rest := ⟨rest, by simp⟩
  have heq : asked = earlier ++ [entry] :=
    (List.prefix_of_prefix_length_le hasked hstart (Nat.le_of_eq hlength)).eq_of_length hlength
  subst heq
  refine ⟨rfl, ?_⟩
  rw [answered, answered, List.map_append] at ht
  exact List.singleton_inj.1 (List.append_inj_right ht (by simp))

/-- A fetch whose calls are all answered, when it is known what the answers are. -/
theorem Fetched.of_answered {answers : String → Except Fault (Option Document)}
    (h : Fetched supplied doc order t ending) (hasked : asked <+: order) (ht : t = answered answers asked) :
    ((∀ entry ∈ order, answers entry.1 = .ok (supplied entry.1)) ∧
        ending = .done (overlay supplied order doc)) ∨
      ∃ entry ∈ order, ∃ cause, answers entry.1 = .error cause ∧
        ending = .failed (.credentials entry.1 cause) := by
  cases h with
  | assembled order =>
    have hall : asked = order := hasked.eq_of_length (by simpa [answered] using (congrArg List.length ht).symm)
    subst hall
    refine .inl ⟨fun entry hentry => ?_, rfl⟩
    have hevents := List.map_inj_left.1 ht entry hentry
    injection hevents with _ hanswer
    exact (Option.some.inj hanswer).symm
  | failed earlier entry rest cause =>
    obtain ⟨-, hevent⟩ := eq_of_answered hasked ht
    injection hevent with _ hanswer
    exact .inr ⟨entry, by simp, cause, (Option.some.inj hanswer).symm, rfl⟩
  | cut earlier entry rest =>
    obtain ⟨-, hevent⟩ := eq_of_answered hasked ht
    injection hevent with _ hanswer
    cases hanswer

end Fetched

section Orders

variable {providers : Registry Document} {registrations : List (String × String)}

/-- A source with static documents and suppliers that were registered one after the other. -/
def sourceOf (providers : Registry Document) (registrations : List (String × String)) : Credentials :=
  (ofProviders providers).withSuppliers registrations

/-- The supplier was registered last for its provider, and there is no static document, or an empty one. -/
def Eligible (providers : Registry Document) (registrations : List (String × String)) (entry : String × String) :
    Prop :=
  registered? registrations entry.1 = some entry.2 ∧ lacks providers entry.1 = true

instance : DecidablePred (Eligible providers registrations) :=
  fun _ => inferInstanceAs (Decidable (_ ∧ _))

/-- What supplied documents count for: those of providers that have a supplier. -/
def ofRegistered (registrations : List (String × String)) (supplied : String → Option Document) :
    String → Option Document :=
  fun provider => (registered? registrations provider).bind fun _ => supplied provider

theorem find?_sourceOf (provider : String) :
    (sourceOf providers registrations).suppliers.find? provider = registered? registrations provider :=
  (find?_withSuppliers (ofProviders providers) registrations provider).trans Option.or_none

theorem providers_sourceOf : (sourceOf providers registrations).providers = providers :=
  providers_withSuppliers (ofProviders providers) registrations

variable (horder : order.Perm (sourceOf providers registrations).suppliers.entries)

include horder in
theorem mem_eligible_sourceOf (entry : String × String) :
    entry ∈ (sourceOf providers registrations).eligible order ↔ Eligible providers registrations entry := by
  rw [mem_eligible_iff _ horder, find?_sourceOf, providers_sourceOf, Eligible]

include horder in
theorem assembled_sourceOf (supplied : String → Option Document) :
    Assembled providers (ofRegistered registrations supplied)
      (overlay supplied ((sourceOf providers registrations).eligible order)
        (sourceOf providers registrations).staticDocument) := by
  have h := assembled_overlay (sourceOf providers registrations) horder supplied
  simp only [find?_sourceOf, providers_sourceOf] at h
  exact h

include horder in
theorem nodup_eligible : (((sourceOf providers registrations).eligible order).map Prod.fst).Nodup :=
  (List.filter_sublist.map Prod.fst).nodup (nodup_order _ horder)

/-- What a fetch has done that asked these suppliers. -/
structure FetchedExactly (providers : Registry Document) (registrations asked : List (String × String))
    (t : List Event) (ending : Ending ClientError Document) : Prop where
  calls : t.map Event.supplier? = asked.map fun entry => some entry.2
  once : (asked.map Prod.fst).Nodup
  eligible : ∀ entry ∈ asked, Eligible providers registrations entry
  /-- A document takes an answer from every eligible supplier. -/
  assembled : ∀ doc, ending = .done doc →
    (∀ entry, Eligible providers registrations entry → entry ∈ asked) ∧
      ∃ supplied, t = answered (Except.ok ∘ supplied) asked ∧
        Assembled providers (ofRegistered registrations supplied) doc
  /-- The first failure is the last call. -/
  failed : ∀ e, ending = .failed e → ∃ supplied earlier entry cause, asked = earlier ++ [entry] ∧
    t = answered (Except.ok ∘ supplied) earlier ++ [.service (.supply entry.2) (some (.error cause))] ∧
      e = .credentials entry.1 cause
  expired : ending = .expired → EndsCut t
  ends : ending ≠ .unfinished
  /-- Where no supplier fails a document comes of it. -/
  succeeds : (∀ e ∈ t, e.IsSupplied) → ∃ doc, ending = .done doc

theorem map_supplier?_stopped (earlier : List (String × String)) (entry : String × String)
    (answer : Option (Except Fault (Option Document))) :
    (answered (Except.ok ∘ supplied) earlier ++ [Event.service (.supply entry.2) answer]).map Event.supplier? =
      (earlier ++ [entry]).map fun entry => some entry.2 := by
  rw [List.map_append, map_supplier?_answered, List.map_append]
  rfl

include horder in
theorem Fetched.exactly
    (h : Fetched supplied (sourceOf providers registrations).staticDocument
      ((sourceOf providers registrations).eligible order) t ending) :
    ∃ asked, asked <+: (sourceOf providers registrations).eligible order ∧
      FetchedExactly providers registrations asked t ending := by
  have hmem := mem_eligible_sourceOf horder
  have hnodup := nodup_eligible horder
  have hassembled := assembled_sourceOf horder supplied
  generalize (sourceOf providers registrations).eligible order = eligible at h hmem hnodup hassembled
  cases h with
  | assembled eligible =>
    exact ⟨eligible, List.prefix_rfl, {
      calls := map_supplier?_answered _ _
      once := hnodup
      eligible := fun entry => (hmem entry).1
      assembled := by
        rintro doc ⟨⟩
        exact ⟨fun entry => (hmem entry).2, supplied, rfl, hassembled⟩
      failed := nofun
      expired := nofun
      ends := nofun
      succeeds := fun _ => ⟨_, rfl⟩ }⟩
  | failed earlier entry rest cause =>
    have hstart : earlier ++ [entry] <+: earlier ++ entry :: rest := ⟨rest, by simp⟩
    exact ⟨earlier ++ [entry], hstart, {
      calls := map_supplier?_stopped earlier entry _
      once := (hstart.sublist.map Prod.fst).nodup hnodup
      eligible := fun e he => (hmem e).1 (hstart.subset he)
      assembled := nofun
      failed := by
        rintro e ⟨⟩
        exact ⟨supplied, earlier, entry, cause, rfl, rfl, rfl⟩
      expired := nofun
      ends := nofun
      succeeds := fun hall => by
        obtain ⟨supplier, reply, heq⟩ := hall (.service (.supply entry.2) (some (.error cause))) (by simp)
        cases heq }⟩
  | cut earlier entry rest =>
    have hstart : earlier ++ [entry] <+: earlier ++ entry :: rest := ⟨rest, by simp⟩
    exact ⟨earlier ++ [entry], hstart, {
      calls := map_supplier?_stopped earlier entry _
      once := (hstart.sublist.map Prod.fst).nodup hnodup
      eligible := fun e he => (hmem e).1 (hstart.subset he)
      assembled := nofun
      failed := nofun
      expired := fun _ => ⟨_, _, rfl⟩
      ends := nofun
      succeeds := fun hall => by
        obtain ⟨supplier, reply, heq⟩ := hall (.service (.supply entry.2) none) (by simp)
        cases heq }⟩

include horder in
theorem yields_fetchedExactly :
    Yields setting ((sourceOf providers registrations).fetchInOrder order) fun t ending =>
      ∃ asked, asked <+: (sourceOf providers registrations).eligible order ∧
        FetchedExactly providers registrations asked t ending := by
  refine (yields_fetchInOrder _ setting horder).mono fun t ending h => ?_
  obtain ⟨supplied, h⟩ := h
  exact h.exactly horder

/-- A fetch that gives a document has asked every eligible supplier once, and no other. -/
theorem FetchedExactly.count_eq (h : FetchedExactly providers registrations asked t (.done doc))
    (entry : String × String) : asked.count entry = if Eligible providers registrations entry then 1 else 0 := by
  obtain ⟨hall, -⟩ := h.assembled doc rfl
  have hnodup : asked.Nodup := Fields.nodup_of_names h.once
  have hmem : entry ∈ asked ↔ Eligible providers registrations entry := ⟨h.eligible entry, hall entry⟩
  simp only [hnodup.count, hmem]

/-- Every fetch visits the suppliers in an order of its own, and all their calls are answered without failure. -/
theorem yields_mapM_fetchInOrder (orders : List (List (String × String)))
    (horders : ∀ order ∈ orders, order.Perm (sourceOf providers registrations).suppliers.entries) :
    Yields setting (orders.mapM (sourceOf providers registrations).fetchInOrder) fun t ending =>
      (∀ e ∈ t, e.IsSupplied) →
        ∃ (docs : List Document) (asked : List (String × String)),
          ending = .done docs ∧ docs.length = orders.length ∧
          t.map Event.supplier? = asked.map (fun entry => some entry.2) ∧
          ∀ entry, asked.count entry = if Eligible providers registrations entry then orders.length else 0 := by
  induction orders with
  | nil =>
    rw [List.mapM_nil]
    exact yields_pure fun _ => ⟨[], [], rfl, rfl, rfl, fun entry => (ite_self _).symm⟩
  | cons order rest ih =>
    obtain ⟨horder, hrest⟩ := List.forall_mem_cons.1 horders
    rw [List.mapM_cons]
    refine (yields_fetchedExactly horder).bind ?_ ?_
    · rintro t doc ⟨asked, -, hfetched⟩
      refine (ih hrest).bind ?_ ?_
      · intro u docs hdocs
        refine yields_pure fun hanswered => ?_
        rw [List.append_nil] at hanswered ⊢
        obtain ⟨docs, askedRest, ⟨⟩, hlength, hcalls, hcount⟩ :=
          hdocs fun e he => hanswered e (List.mem_append_right t he)
        refine ⟨doc :: docs, asked ++ askedRest, rfl, congrArg (· + 1) hlength, ?_, fun entry => ?_⟩
        · rw [List.map_append, hfetched.calls, hcalls, List.map_append]
        · rw [List.count_append, hfetched.count_eq, hcount, List.length_cons]
          split <;> omega
      · intro u stop hstop hanswered
        obtain ⟨docs, -, hdone, -⟩ := hstop fun e he => hanswered e (List.mem_append_right t he)
        cases stop <;> cases hdone
    · rintro t stop ⟨asked, -, hfetched⟩ hanswered
      obtain ⟨doc, hdone⟩ := hfetched.succeeds hanswered
      cases stop <;> cases hdone

/-- How a source of credentials makes its documents, in whatever orders it visits its suppliers. -/
structure AssemblesExactly (σ : Type) (providers : Registry Document) (registrations : List (String × String))
    (source : Credentials) : Prop where
  fetched : ∀ (setting : Setting σ) (scene : Scene σ) (order : List (String × String)),
    order.Perm source.suppliers.entries →
      ∃ asked, asked <+: source.eligible order ∧
        FetchedExactly providers registrations asked (source.fetchInOrder order setting scene).trace
          (source.fetchInOrder order setting scene).ending
  /-- The same supplied documents make the same document in every order. -/
  unordered : ∀ supplied : String → Option Document,
    ∃ doc, Assembled providers (ofRegistered registrations supplied) doc ∧
      ∀ (setting : Setting σ) (scene : Scene σ) (order asked : List (String × String)),
        order.Perm source.suppliers.entries → asked <+: source.eligible order →
          (source.fetchInOrder order setting scene).trace = answered (Except.ok ∘ supplied) asked →
            (source.fetchInOrder order setting scene).ending = .done doc
  /-- Where the supplier of an eligible provider fails, some such failure is the result in every order. -/
  failing : ∀ answers : String → Except Fault (Option Document),
    (∃ entry cause, Eligible providers registrations entry ∧ answers entry.1 = .error cause) →
      ∀ (setting : Setting σ) (scene : Scene σ) (order asked : List (String × String)),
        order.Perm source.suppliers.entries → asked <+: source.eligible order →
          (source.fetchInOrder order setting scene).trace = answered answers asked →
            ∃ entry cause, Eligible providers registrations entry ∧ answers entry.1 = .error cause ∧
              (source.fetchInOrder order setting scene).ending = .failed (.credentials entry.1 cause)
  /-- No fetch changes the source: each of them asks every eligible supplier once. -/
  repeated : ∀ (setting : Setting σ) (scene : Scene σ) (orders : List (List (String × String))),
    (∀ order ∈ orders, order.Perm source.suppliers.entries) →
      (∀ e ∈ (orders.mapM source.fetchInOrder setting scene).trace, e.IsSupplied) →
      ∃ (docs : List Document) (asked : List (String × String)),
        (orders.mapM source.fetchInOrder setting scene).ending = .done docs ∧ docs.length = orders.length ∧
          (orders.mapM source.fetchInOrder setting scene).trace.map Event.supplier? =
            asked.map (fun entry => some entry.2) ∧
          ∀ entry, asked.count entry = if Eligible providers registrations entry then orders.length else 0

theorem assembles_exactly (σ : Type) (providers : Registry Document) (registrations : List (String × String)) :
    AssemblesExactly σ providers registrations (sourceOf providers registrations) where
  fetched setting scene order horder := yields_fetchedExactly horder scene
  unordered supplied := by
    have hentries := assembled_sourceOf (.refl (sourceOf providers registrations).suppliers.entries) supplied
    -- the document of the source's own order; those of other orders settle every provider in the same way
    refine ⟨_, hentries, fun setting scene order asked horder hasked htrace => ?_⟩
    obtain ⟨supplied', hfetched⟩ := yields_fetchInOrder _ setting horder scene
    rcases hfetched.of_answered hasked htrace with ⟨hsame, hending⟩ | ⟨entry, -, cause, hcause, -⟩
    · rw [hending, overlay_congr fun entry hentry => (Except.ok.inj (hsame entry hentry)).symm]
      exact congrArg Ending.done ((assembled_sourceOf horder supplied).unique hentries)
    · cases hcause
  failing answers hfails setting scene order asked horder hasked htrace := by
    have hmem := mem_eligible_sourceOf horder
    obtain ⟨supplied, hfetched⟩ := yields_fetchInOrder _ setting horder scene
    rcases hfetched.of_answered hasked htrace with ⟨hsame, -⟩ | ⟨entry, hentry, cause, hcause, hending⟩
    · obtain ⟨entry, cause, heligible, hcause⟩ := hfails
      rw [hsame entry ((hmem entry).2 heligible)] at hcause
      cases hcause
    · exact ⟨entry, cause, (hmem entry).1 hentry, hcause, hending⟩
  repeated setting scene orders horders := yields_mapM_fetchInOrder orders horders scene

end Orders

end Credentials

end FieldSeal
