import JsonShorthand.Generator

namespace JsonShorthand.Fields

variable {α : Type} {bound : Option String}

theorem mem_toList_iff (fields : Fields α bound) {name : String} {value : α} :
    (name, value) ∈ fields.toList ↔ fields.get? name = some value := by
  induction fields with
  | nil => simp [toList, get?]
  | cons other above present rest ih =>
    by_cases hname : name = other
    · subst hname
      have hrest : rest.get? name = none := get?_eq_none_of_not_above rest (String.lt_irrefl name)
      simp [toList, get?, ih, hrest, eq_comm]
    · simp [toList, get?, ih, hname]

theorem toList_map {β : Type} (f : α → β) (fields : Fields α bound) :
    (fields.map f).toList = fields.toList.map fun entry => (entry.1, f entry.2) := by
  induction fields with
  | nil => rfl
  | cons name above value rest ih => simp [map, toList, ih]

theorem nodup_names (fields : Fields α bound) : (fields.toList.map Prod.fst).Nodup := by
  apply List.pairwise_map.2
  apply fields.pairwise_toList.imp
  intro entry later hlt heq
  exact String.lt_irrefl later.1 (heq ▸ hlt)

theorem not_mem_names_iff (fields : Fields α bound) {name : String} :
    name ∉ fields.toList.map Prod.fst ↔ fields.get? name = none := by
  cases hname : fields.get? name <;> simp [mem_toList_iff, hname]

theorem nodup_of_nodup_names {entries : List (String × α)}
    (h : (entries.map Prod.fst).Nodup) : entries.Nodup := by
  apply List.Pairwise.of_map Prod.fst _ h
  intro entry other hne heq
  exact hne (congrArg Prod.fst heq)

theorem perm_toList {entries : List (String × α)} (hnodup : (entries.map Prod.fst).Nodup)
    {fields : Fields α bound}
    (h : ∀ name value, (name, value) ∈ entries ↔ fields.get? name = some value) :
    entries.Perm fields.toList := by
  apply (List.perm_ext_iff_of_nodup (nodup_of_nodup_names hnodup)
    (nodup_of_nodup_names fields.nodup_names)).2
  intro entry
  rw [h entry.1 entry.2, ← mem_toList_iff]

section StoreList

variable (store : α → Option α → α)

/-- Stores entries in the order of a list, each as what `store` makes of it and of the value that
stands under its name. -/
def storeList (fields : Fields α none) (entries : List (String × α)) : Fields α none :=
  entries.foldl (fun fields entry => fields.alter entry.1 (above_none entry.1) (store entry.2))
    fields

@[simp] theorem storeList_nil (fields : Fields α none) : fields.storeList store [] = fields := rfl

theorem storeList_cons (fields : Fields α none) (entry : String × α)
    (entries : List (String × α)) :
    fields.storeList store (entry :: entries) =
      (fields.alter entry.1 (above_none entry.1) (store entry.2)).storeList store entries := rfl

theorem storeList_append (fields : Fields α none) (entries others : List (String × α)) :
    fields.storeList store (entries ++ others) =
      (fields.storeList store entries).storeList store others := by
  simp [storeList]

theorem get?_storeList_of_not_mem {entries : List (String × α)} {name : String}
    (h : name ∉ entries.map Prod.fst) (fields : Fields α none) :
    (fields.storeList store entries).get? name = fields.get? name := by
  induction entries generalizing fields with
  | nil => rfl
  | cons entry entries ih =>
    rw [List.map_cons, List.mem_cons, not_or] at h
    rw [storeList_cons, ih h.2, get?_alter_of_ne _ _ _ h.1]

theorem get?_storeList_of_mem {entries : List (String × α)}
    (hnodup : (entries.map Prod.fst).Nodup) {name : String} {value : α}
    (h : (name, value) ∈ entries) (fields : Fields α none) :
    (fields.storeList store entries).get? name = some (store value (fields.get? name)) := by
  induction entries generalizing fields with
  | nil => simp at h
  | cons entry entries ih =>
    obtain ⟨hother, hnodup⟩ := List.nodup_cons.1 hnodup
    rw [storeList_cons]
    rcases List.mem_cons.1 h with rfl | h
    · rw [get?_storeList_of_not_mem store hother, get?_alter_self]
    · have hne : name ≠ entry.1 := by
        intro heq
        exact hother (List.mem_map.2 ⟨_, h, heq⟩)
      rw [ih hnodup h, get?_alter_of_ne _ _ _ hne]

theorem storeList_perm {entries others : List (String × α)} (h : entries.Perm others)
    (hnodup : (entries.map Prod.fst).Nodup) (fields : Fields α none) :
    fields.storeList store entries = fields.storeList store others := by
  have hnodup' : (others.map Prod.fst).Nodup := (h.map Prod.fst).nodup_iff.1 hnodup
  apply ext
  intro name
  by_cases hname : name ∈ entries.map Prod.fst
  · obtain ⟨entry, hentry, rfl⟩ := List.mem_map.1 hname
    rw [get?_storeList_of_mem store hnodup hentry,
      get?_storeList_of_mem store hnodup' (h.mem_iff.1 hentry)]
  · have hname' : name ∉ others.map Prod.fst := by rwa [← (h.map Prod.fst).mem_iff]
    rw [get?_storeList_of_not_mem store hname, get?_storeList_of_not_mem store hname']

/-- The entries of a map, stored in another map, as they are found there. -/
theorem get?_storeList_toList (earlier : Fields α none) (later : Fields α bound) (name : String) :
    (earlier.storeList store later.toList).get? name =
      ((later.get? name).map fun value => store value (earlier.get? name)).or
        (earlier.get? name) := by
  cases hlater : later.get? name with
  | none => exact get?_storeList_of_not_mem store (later.not_mem_names_iff.2 hlater) earlier
  | some value =>
    exact get?_storeList_of_mem store later.nodup_names (later.mem_toList_iff.2 hlater) earlier

theorem get?_storeList_nil_eq_some_iff (hstore : ∀ value, store value none = value)
    {entries : List (String × α)} (hnodup : (entries.map Prod.fst).Nodup) {name : String}
    {value : α} :
    (storeList store nil entries).get? name = some value ↔ (name, value) ∈ entries := by
  apply Iff.intro
  · intro h
    by_cases hname : name ∈ entries.map Prod.fst
    · obtain ⟨entry, hentry, rfl⟩ := List.mem_map.1 hname
      rw [get?_storeList_of_mem store hnodup hentry, get?_nil, hstore] at h
      obtain rfl := Option.some.inj h
      exact hentry
    · rw [get?_storeList_of_not_mem store hname] at h
      contradiction
  · intro h
    rw [get?_storeList_of_mem store hnodup h, get?_nil, hstore]

/-- A map is built from its entries in any order, if what comes first under a name is stored as it
is. -/
theorem storeList_of_perm (hstore : ∀ value, store value none = value) {fields : Fields α none}
    {entries : List (String × α)} (h : entries.Perm fields.toList) :
    storeList store nil entries = fields := by
  rw [storeList_perm store h ((h.map Prod.fst).nodup_iff.2 fields.nodup_names)]
  apply ext
  intro name
  rw [get?_storeList_toList]
  cases fields.get? name with
  | none => rfl
  | some value => simp [hstore]

end StoreList

theorem ofList_of_perm {fields : Fields α none} {entries : List (String × α)}
    (h : entries.Perm fields.toList) : ofList entries = fields :=
  storeList_of_perm (fun value _ => value) (fun _ => rfl) h

/-- A generator merges with the one that stands under its name, if there is one. -/
def mergeInto (later : Generator) : Option Generator → Generator
  | none => later
  | some present => present.merge later

theorem addList_eq_storeList (fields : Fields Generator none)
    (entries : List (String × Generator)) :
    fields.addList entries = fields.storeList mergeInto entries := rfl

theorem addList_cons (fields : Fields Generator none) (entry : String × Generator)
    (entries : List (String × Generator)) :
    fields.addList (entry :: entries) = (fields.add entry.1 entry.2).addList entries := rfl

theorem addList_append (fields : Fields Generator none)
    (entries others : List (String × Generator)) :
    fields.addList (entries ++ others) = (fields.addList entries).addList others :=
  storeList_append mergeInto fields entries others

theorem addList_of_perm {fields : Fields Generator none} {entries : List (String × Generator)}
    (h : entries.Perm fields.toList) : addList .nil entries = fields :=
  storeList_of_perm mergeInto (fun _ => rfl) h

theorem get?_addAll (earlier : Fields Generator none) (later : Fields Generator bound)
    (name : String) :
    (earlier.addAll later).get? name =
      ((later.get? name).map fun generator => mergeInto generator (earlier.get? name)).or
        (earlier.get? name) := by
  rw [addAll_eq_addList, addList_eq_storeList, get?_storeList_toList]

theorem perm_toList_addList {entries : List (String × Generator)}
    (hnodup : (entries.map Prod.fst).Nodup) : entries.Perm (addList .nil entries).toList := by
  apply perm_toList hnodup
  intro name generator
  exact (get?_storeList_nil_eq_some_iff mergeInto (fun _ => rfl) hnodup).symm

/-- Adding distinct fields is the same as merging with the object that they make. -/
theorem addList_eq_addAll {entries : List (String × Generator)}
    (hnodup : (entries.map Prod.fst).Nodup) (fields : Fields Generator none) :
    fields.addList entries = fields.addAll (addList .nil entries) := by
  rw [addAll_eq_addList]
  exact storeList_perm mergeInto (perm_toList_addList hnodup) hnodup fields

end JsonShorthand.Fields
