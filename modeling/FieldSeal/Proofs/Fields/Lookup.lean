import FieldSeal.Fields

/-!
Looking up named values. Sorted fields are determined by what is found under each name, so they do not depend on the
order in which values were put into them.
-/

namespace FieldSeal

namespace Fields

variable {α β : Type} {name other : String} {value : α} {fields others : Fields α}

theorem find?_cons (entry : String × α) (rest : Fields α) (name : String) :
    find? (entry :: rest) name = if name = entry.1 then some entry.2 else find? rest name := by
  obtain ⟨n, v⟩ := entry
  by_cases h : name = n
  · subst h
    simp [find?]
  · have hne : (name == n) = false := beq_eq_false_iff_ne.2 h
    rw [find?, List.lookup_cons, hne, if_neg h]
    rfl

theorem find?_insert (name : String) (value : α) (fields : Fields α) (other : String) :
    find? (insert name value fields) other = if other = name then some value else find? fields other := by
  induction fields with
  | nil => rw [insert, find?_cons]
  | cons entry rest ih =>
    obtain ⟨n, v⟩ := entry
    rw [insert]
    split
    · rw [find?_cons]
    · split
      · next h =>
        subst h
        rw [find?_cons, find?_cons]
        split <;> rfl
      · next hne =>
        rw [find?_cons, find?_cons, ih]
        by_cases hname : other = name
        · subst hname
          rw [if_neg hne, if_pos rfl, if_pos rfl]
        · rw [if_neg hname, if_neg hname]

theorem mem_names_cons {entry : String × α} : name ∈ names (entry :: fields) ↔ name = entry.1 ∨ name ∈ names fields :=
  List.mem_cons

theorem mem_names_iff : name ∈ names fields ↔ (find? fields name).isSome = true := by
  induction fields with
  | nil => simp [names, find?]
  | cons entry rest ih =>
    rw [find?_cons, mem_names_cons, ih]
    by_cases h : name = entry.1 <;> simp [h]

theorem mem_names_insert : other ∈ names (insert name value fields) ↔ other = name ∨ other ∈ names fields := by
  rw [mem_names_iff, mem_names_iff, find?_insert]
  by_cases h : other = name <;> simp [h]

theorem mem_names_foldl_insert (entries : List (String × α)) (fields : Fields α) :
    name ∈ names (entries.foldl (fun acc (name, value) => insert name value acc) fields) ↔
      name ∈ names entries ∨ name ∈ names fields := by
  induction entries generalizing fields with
  | nil => simp [names]
  | cons entry rest ih =>
    rw [List.foldl_cons, ih, mem_names_insert, mem_names_cons, or_left_comm, or_assoc]

theorem mem_names_ofList {entries : List (String × α)} : name ∈ names (ofList entries) ↔ name ∈ names entries :=
  (mem_names_foldl_insert entries []).trans (or_iff_left List.not_mem_nil)

theorem find?_map (f : α → β) (fields : Fields α) (name : String) :
    find? (fields.map fun entry => (entry.1, f entry.2)) name = (find? fields name).map f := by
  induction fields with
  | nil => rfl
  | cons entry rest ih =>
    rw [List.map_cons, find?_cons, find?_cons, ih]
    split <;> rfl

theorem find?_append (fields others : Fields α) (name : String) :
    find? (fields ++ others) name = (find? fields name).or (find? others name) := by
  induction fields with
  | nil => rfl
  | cons entry rest ih =>
    rw [List.cons_append, find?_cons, find?_cons, ih]
    split <;> rfl

theorem mem_of_find? (h : find? fields name = some value) : (name, value) ∈ fields := by
  induction fields with
  | nil => cases h
  | cons entry rest ih =>
    rw [find?_cons] at h
    split at h
    · next hname =>
      cases h
      subst hname
      exact List.mem_cons_self
    · exact List.mem_cons_of_mem _ (ih h)

/-- Where no name is repeated, what is found is what is there. -/
theorem find?_eq_some_iff (hnodup : (names fields).Nodup) :
    find? fields name = some value ↔ (name, value) ∈ fields := by
  refine ⟨mem_of_find?, fun h => ?_⟩
  induction fields with
  | nil => cases h
  | cons entry rest ih =>
    obtain ⟨hnot, hrest⟩ := List.nodup_cons.1 hnodup
    rw [find?_cons]
    rcases List.mem_cons.1 h with rfl | h
    · rw [if_pos rfl]
    · have hne : name ≠ entry.1 := fun heq => hnot (heq ▸ List.mem_map_of_mem h)
      rw [if_neg hne, ih hrest h]

theorem Sorted.nodup (h : Sorted fields) : (names fields).Nodup := by
  rw [names, List.Nodup, List.pairwise_map]
  refine h.imp fun {a b} hlt heq => ?_
  rw [heq] at hlt
  exact String.lt_irrefl _ hlt

theorem Sorted.map {f : α → β} (h : Sorted fields) :
    Sorted (fields.map fun entry => (entry.1, f entry.2)) :=
  List.pairwise_map.2 h

theorem nodup_of_names (hnodup : (names fields).Nodup) : fields.Nodup :=
  (List.pairwise_map.1 hnodup).imp fun hne heq => hne (congrArg Prod.fst heq)

/-- Sorted fields in the same number and under the same names are the same. -/
theorem Sorted.eq_of_perm (h : Sorted fields) (h' : Sorted others) (hperm : fields.Perm others) : fields = others :=
  hperm.eq_of_pairwise (fun _ _ _ _ hab hba => absurd hab (String.lt_asymm hba)) h h'

/-- Sorted fields are determined by what is found in them. -/
theorem Sorted.ext (h : Sorted fields) (h' : Sorted others)
    (hfind : ∀ name, find? fields name = find? others name) : fields = others := by
  refine h.eq_of_perm h' ((List.perm_ext_iff_of_nodup (nodup_of_names h.nodup) (nodup_of_names h'.nodup)).2 ?_)
  intro entry
  obtain ⟨name, value⟩ := entry
  rw [← find?_eq_some_iff h.nodup, ← find?_eq_some_iff h'.nodup, hfind]

/-- A value under a new name is one more. -/
theorem perm_insert (hname : name ∉ names fields) (value : α) :
    (insert name value fields).Perm ((name, value) :: fields) := by
  induction fields with
  | nil => exact .refl _
  | cons entry rest ih =>
    obtain ⟨n, v⟩ := entry
    obtain ⟨hne, hrest⟩ : name ≠ n ∧ name ∉ names rest := by simpa [names] using hname
    rw [insert]
    by_cases hlt : name < n
    · rw [if_pos hlt]
    · rw [if_neg hlt, if_neg hne]
      exact ((ih hrest).cons (n, v)).trans (.swap _ _ _)

/-- Each value in its turn goes under a new name. -/
theorem perm_foldl_insert (fields acc : Fields α) (hnodup : (names (fields ++ acc)).Nodup) :
    (fields.foldl (fun acc (name, value) => insert name value acc) acc).Perm (fields ++ acc) := by
  induction fields generalizing acc with
  | nil => exact .refl acc
  | cons entry rest ih =>
    obtain ⟨name, value⟩ := entry
    obtain ⟨hnot, hrest⟩ := List.nodup_cons.1 hnodup
    have hacc : name ∉ names acc := fun h => hnot (by simp [names] at h ⊢; exact .inr h)
    -- the entry goes into the accumulator, in whatever place
    have hmoved : (rest ++ insert name value acc).Perm ((name, value) :: rest ++ acc) :=
      ((perm_insert hacc value).append_left rest).trans List.perm_middle
    exact (ih _ ((hmoved.map Prod.fst).nodup_iff.2 hnodup)).trans hmoved

/-- Fields without repetition are only brought into order. -/
theorem perm_ofList (hnodup : (names fields).Nodup) : (ofList fields).Perm fields := by
  have hperm := perm_foldl_insert fields [] (by rwa [List.append_nil])
  rwa [List.append_nil] at hperm

/-- Sorted fields are in order already. -/
theorem Sorted.ofList_eq (h : Sorted fields) : ofList fields = fields :=
  (sorted_ofList fields).eq_of_perm h (perm_ofList h.nodup)

end Fields

theorem Registry.ofList_entries {α : Type} (r : Registry α) : Registry.ofList r.entries = r :=
  Registry.ext_entries r.sorted.ofList_eq

end FieldSeal
