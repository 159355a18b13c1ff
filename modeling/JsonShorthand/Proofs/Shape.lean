import JsonShorthand.Proofs.Leaves
import JsonShorthand.Proofs.MergePath
import JsonShorthand.Proofs.Printing

namespace JsonShorthand

namespace Value

mutual

def height : Value → Nat
  | array elements => heightOfElements elements + 1
  | object fields => heightOfFields fields + 1
  | _ => 0

def heightOfElements : List Value → Nat
  | [] => 0
  | v :: rest => max (height v) (heightOfElements rest)

def heightOfFields {bound : Option String} : Fields Value bound → Nat
  | .nil => 0
  | .cons _ _ v rest => max (height v) (heightOfFields rest)

end

theorem height_of_isScalar {v : Value} (h : v.IsScalar) : v.height = 0 := by
  cases v with
  | array elements | object fields => exact h.elim
  | _ => rfl

theorem heightOfElements_le_iff {elements : List Value} {limit : Nat} :
    heightOfElements elements ≤ limit ↔ ∀ v ∈ elements, v.height ≤ limit := by
  induction elements with
  | nil => simp [heightOfElements]
  | cons v rest ih => simp [heightOfElements, ih]

theorem heightOfFields_le_iff {bound : Option String} {fields : Fields Value bound}
    {limit : Nat} :
    heightOfFields fields ≤ limit ↔ ∀ entry ∈ fields.toList, entry.2.height ≤ limit := by
  induction fields with
  | nil => simp [heightOfFields, Fields.toList]
  | cons name above v rest ih => simp [heightOfFields, Fields.toList, ih]

end Value

namespace Generator

mutual

/-- The number of arrays and objects on the longest way down. -/
def height : Generator → Nat
  | array elements => heightOfElements elements + 1
  | object fields => heightOfFields fields + 1
  | _ => 0

def heightOfElements : List Generator → Nat
  | [] => 0
  | generator :: rest => max (height generator) (heightOfElements rest)

def heightOfFields {bound : Option String} : Fields Generator bound → Nat
  | .nil => 0
  | .cons _ _ generator rest => max (height generator) (heightOfFields rest)

end

theorem heightOfElements_le_iff {elements : List Generator} {limit : Nat} :
    heightOfElements elements ≤ limit ↔ ∀ generator ∈ elements, generator.height ≤ limit := by
  induction elements with
  | nil => simp [heightOfElements]
  | cons generator rest ih => simp [heightOfElements, ih]

theorem heightOfFields_le_iff {bound : Option String} {fields : Fields Generator bound}
    {limit : Nat} :
    heightOfFields fields ≤ limit ↔ ∀ entry ∈ fields.toList, entry.2.height ≤ limit := by
  induction fields with
  | nil => simp [heightOfFields, Fields.toList]
  | cons name above generator rest ih => simp [heightOfFields, Fields.toList, ih]

theorem height_array_le_iff {elements : List Generator} {limit : Nat} :
    (array elements).height ≤ limit + 1 ↔ ∀ generator ∈ elements, generator.height ≤ limit := by
  rw [height, Nat.add_le_add_iff_right, heightOfElements_le_iff]

theorem height_object_le_iff {fields : Fields Generator none} {limit : Nat} :
    (object fields).height ≤ limit + 1 ↔
      ∀ name generator, fields.get? name = some generator → generator.height ≤ limit := by
  rw [height, Nat.add_le_add_iff_right, heightOfFields_le_iff]
  simp only [← Fields.mem_toList_iff, Prod.forall]

@[simp] theorem height_single (name : String) (generator : Generator) :
    (single name generator).height = generator.height + 1 := by
  simp [single, height, heightOfFields]

/-- Evaluation puts no container into the place of a leaf. -/
theorem height_evaluate_le {bindings : Bindings}
    (hbindings : ∀ name v, bindings.get? name = some v → v.IsScalar) {generator : Generator}
    (hleaves : ∀ v, value v ∈ generator.leaves → v.IsScalar) :
    (generator.evaluate bindings).height ≤ generator.height := by
  induction generator using induction with
  | value v => exact Nat.le_of_eq (Value.height_of_isScalar (hleaves v (by simp [leaves])))
  | var name =>
    apply Nat.le_of_eq
    cases hget : bindings.get? name with
    | none => simp [evaluate, hget, Value.height, height]
    | some v =>
      simpa [evaluate, hget, height] using Value.height_of_isScalar (hbindings name v hget)
  | object fields ih =>
    rw [evaluate, Value.height, height, Nat.add_le_add_iff_right, Value.heightOfFields_le_iff,
      evaluateFields_eq_map, Fields.toList_map]
    intro entry hentry
    obtain ⟨⟨name, child⟩, hchild, rfl⟩ := List.mem_map.1 hentry
    have hget := fields.mem_toList_iff.1 hchild
    have hle := ih name child hget fun v hv =>
      hleaves v (mem_leaves_object_iff.2 ⟨name, child, hget, hv⟩)
    exact Nat.le_trans hle (heightOfFields_le_iff.1 (Nat.le_refl _) (name, child) hchild)
  | array elements ih =>
    rw [evaluate, Value.height, height, Nat.add_le_add_iff_right, Value.heightOfElements_le_iff,
      evaluateElements_eq_map]
    intro v hv
    obtain ⟨child, hchild, rfl⟩ := List.mem_map.1 hv
    have hle := ih child hchild fun v hv => by
      apply hleaves
      rw [leaves, leavesOfElements_eq]
      exact List.mem_flatMap.2 ⟨child, hchild, hv⟩
    exact Nat.le_trans hle (heightOfElements_le_iff.1 (Nat.le_refl _) child hchild)

mutual

def names : Generator → List String
  | array elements => namesOfElements elements
  | object fields => namesOfFields fields
  | _ => []

def namesOfElements : List Generator → List String
  | [] => []
  | generator :: rest => names generator ++ namesOfElements rest

def namesOfFields {bound : Option String} : Fields Generator bound → List String
  | .nil => []
  | .cons name _ generator rest => name :: (names generator ++ namesOfFields rest)

end

theorem mem_namesOfElements_iff {elements : List Generator} {name : String} :
    name ∈ namesOfElements elements ↔ ∃ generator ∈ elements, name ∈ generator.names := by
  induction elements with
  | nil => simp [namesOfElements]
  | cons generator rest ih => simp [namesOfElements, ih]

theorem mem_namesOfFields_iff {bound : Option String} {fields : Fields Generator bound}
    {name : String} :
    name ∈ namesOfFields fields ↔
      ∃ entry ∈ fields.toList, name = entry.1 ∨ name ∈ entry.2.names := by
  induction fields with
  | nil => simp [namesOfFields, Fields.toList]
  | cons other above generator rest ih => simp [namesOfFields, Fields.toList, ih, or_assoc]

theorem forall_names_object_iff {fields : Fields Generator none} {p : String → Prop} :
    (∀ name ∈ (object fields).names, p name) ↔
      ∀ name generator, fields.get? name = some generator →
        p name ∧ ∀ other ∈ generator.names, p other := by
  simp only [names, mem_namesOfFields_iff, ← Fields.mem_toList_iff]
  grind

@[simp] theorem names_single (name : String) (generator : Generator) :
    (single name generator).names = name :: generator.names := by
  simp [single, names, namesOfFields]

/-- Merging keeps a bound on generators that an object keeps just if its names and what stands under
them keep one. -/
theorem merge_of_fields {ι : Type} {p : ι → Generator → Prop}
    (hobject : ∀ i fields, p i (object fields) → ∃ (j : ι) (named : String → Prop),
      ∀ others : Fields Generator none, p i (object others) ↔
        ∀ name generator, others.get? name = some generator → named name ∧ p j generator)
    {i : ι} {earlier later : Generator} (hearlier : p i earlier) (hlater : p i later) :
    p i (earlier.merge later) := by
  induction later using induction generalizing i earlier with
  | object fields ih =>
    by_cases h : earlier.IsObject
    · obtain ⟨present, rfl⟩ := h
      obtain ⟨j, named, hiff⟩ := hobject i fields hlater
      have hpresent := (hiff present).1 hearlier
      have hfields := (hiff fields).1 hlater
      rw [merge_object, hiff]
      -- under each name stands what one of the objects has there, or the merge of both
      intro name generator hget
      rw [get?_addAll_eq] at hget
      cases hfirst : present.get? name with
      | none =>
        cases hsecond : fields.get? name with
        | none => simp [hfirst, hsecond] at hget
        | some second =>
          obtain rfl : second = generator := by simpa [hfirst, hsecond] using hget
          exact hfields name second hsecond
      | some first =>
        cases hsecond : fields.get? name with
        | none =>
          obtain rfl : first = generator := by simpa [hfirst, hsecond] using hget
          exact hpresent name first hfirst
        | some second =>
          obtain rfl : first.merge second = generator := by simpa [hfirst, hsecond] using hget
          obtain ⟨hname, hpfirst⟩ := hpresent name first hfirst
          exact ⟨hname, ih name second hsecond hpfirst (hfields name second hsecond).2⟩
    · rwa [merge_of_not_isObject (.inl h)]
  | _ =>
    rw [merge_of_not_isObject]
    · exact hlater
    · exact .inr nofun

theorem object_addList_of_merge {p : Generator → Prop}
    (hmerge : ∀ {earlier later : Generator}, p earlier → p later → p (earlier.merge later))
    {fields : Fields Generator none} (hfields : p (object fields))
    {entries : List (String × Generator)} (h : ∀ entry ∈ entries, p (single entry.1 entry.2)) :
    p (object (fields.addList entries)) := by
  induction entries generalizing fields with
  | nil => exact hfields
  | cons entry entries ih =>
    obtain ⟨hentry, hentries⟩ := List.forall_mem_cons.1 h
    have hadd := hmerge hfields hentry
    rw [merge_single] at hadd
    exact ih hadd hentries

theorem height_merge_le {limit : Nat} {earlier later : Generator}
    (hearlier : earlier.height ≤ limit) (hlater : later.height ≤ limit) :
    (earlier.merge later).height ≤ limit := by
  apply merge_of_fields (p := fun limit generator => generator.height ≤ limit) ?_ hearlier hlater
  intro limit fields h
  cases limit with
  | zero => simp [height] at h
  | succ limit => exact ⟨limit, fun _ => True, fun others => by simp [height_object_le_iff]⟩

theorem forall_names_merge {p : String → Prop} {earlier later : Generator}
    (hearlier : ∀ name ∈ earlier.names, p name) (hlater : ∀ name ∈ later.names, p name) :
    ∀ name ∈ (earlier.merge later).names, p name := by
  apply merge_of_fields (p := fun _ : Unit => fun generator => ∀ name ∈ generator.names, p name)
    ?_ (i := ()) hearlier hlater
  intro _ fields _
  exact ⟨(), p, fun others => forall_names_object_iff⟩

end Generator

namespace Grammar

open Generator (height names object_addList_of_merge height_merge_le forall_names_merge)

theorem height_addList_le {entries : List (String × Generator)} {limit : Nat}
    (h : ∀ entry ∈ entries, entry.2.height ≤ limit) :
    (Generator.object (Fields.addList .nil entries)).height ≤ limit + 1 := by
  apply object_addList_of_merge (p := fun generator => generator.height ≤ limit + 1) height_merge_le
  · simp [height, Generator.heightOfFields]
  · intro entry hentry
    rw [Generator.height_single]
    exact Nat.succ_le_succ (h entry hentry)

theorem forall_names_addList {entries : List (String × Generator)} {p : String → Prop}
    (h : ∀ entry ∈ entries, p entry.1 ∧ ∀ name ∈ entry.2.names, p name) :
    ∀ name ∈ (Generator.object (Fields.addList .nil entries)).names, p name := by
  apply object_addList_of_merge (p := fun generator => ∀ name ∈ generator.names, p name)
    forall_names_merge
  · simp [names, Generator.namesOfFields]
  · intro entry hentry
    rw [Generator.names_single]
    exact List.forall_mem_cons.2 (h entry hentry)

mutual

/-- A generator is nested no deeper than the levels that are opened for it. -/
theorem Term.height_le : ∀ term : Term, term.denote.height ≤ term.levels
  | .literal _ | .var _ | .raw _ => Nat.zero_le _
  | .group group => group.height_le

theorem Group.height_le : ∀ group : Group, group.denote.height ≤ group.levels
  | .object members =>
    height_addList_le fun entry hentry => Nat.le_of_lt (members.height_lt entry hentry)
  | .array elements => Generator.height_array_le_iff.2 elements.height_le

/-- A tail opens one level more, since the object around it counts as well. -/
theorem Tail.height_lt : ∀ tail : Tail, tail.denote.height < tail.levels
  | .assign value => Nat.lt_succ_of_le value.height_le
  | .path name tail => by
    rw [Tail.denote, Generator.height_single]
    exact Nat.succ_lt_succ tail.height_lt

theorem Members.height_lt : ∀ members : Members,
    ∀ entry ∈ members.entries, entry.2.height < members.levels
  | .nil, _, hentry => nomatch hentry
  | .cons name tail rest, entry, hentry => by
    rcases List.mem_cons.1 hentry with rfl | hentry
    · exact Nat.lt_of_lt_of_le tail.height_lt (Nat.le_max_left _ _)
    · exact Nat.lt_of_lt_of_le (rest.height_lt entry hentry) (Nat.le_max_right _ _)

theorem Elements.height_le : ∀ elements : Elements,
    ∀ generator ∈ elements.denote, generator.height ≤ elements.levels
  | .nil, _, hgenerator => nomatch hgenerator
  | .term value rest, generator, hgenerator => by
    rcases List.mem_cons.1 hgenerator with rfl | hgenerator
    · exact Nat.le_trans value.height_le (Nat.le_max_left _ _)
    · exact Nat.le_trans (rest.height_le generator hgenerator) (Nat.le_max_right _ _)
  | .field name tail rest, generator, hgenerator => by
    rcases List.mem_cons.1 hgenerator with rfl | hgenerator
    · rw [Generator.height_single]
      exact Nat.le_trans tail.height_lt (Nat.le_max_left _ _)
    · exact Nat.le_trans (rest.height_le generator hgenerator) (Nat.le_max_right _ _)

end

mutual

/-- The names in a generator are literals that are read for it. -/
theorem Term.literal_mem : ∀ (term : Term), ∀ name ∈ term.denote.names,
    .literal name ∈ term.symbols
  | .literal _, _, h | .var _, _, h | .raw _, _, h => nomatch h
  | .group group, name, h => group.literal_mem name h

theorem Group.literal_mem : ∀ (group : Group), ∀ name ∈ group.denote.names,
    .literal name ∈ group.symbols
  | .object members, name, h => by
    have hname : .literal name ∈ members.symbols :=
      forall_names_addList (p := fun name => .literal name ∈ members.symbols) members.literal_mem
        name h
    simp [Group.symbols, hname]
  | .array elements, name, h => by
    obtain ⟨generator, hgenerator, hname⟩ := Generator.mem_namesOfElements_iff.1 h
    simp [Group.symbols, elements.literal_mem generator hgenerator name hname]

theorem Tail.literal_mem : ∀ (tail : Tail), ∀ name ∈ tail.denote.names,
    .literal name ∈ tail.symbols
  | .assign value, name, h => List.mem_cons_of_mem _ (value.literal_mem name h)
  | .path other tail, name, h => by
    rw [Tail.denote, Generator.names_single] at h
    rcases List.mem_cons.1 h with rfl | h
    · simp [Tail.symbols]
    · simp [Tail.symbols, tail.literal_mem name h]

theorem Members.literal_mem : ∀ (members : Members), ∀ entry ∈ members.entries,
    .literal entry.1 ∈ members.symbols ∧
      ∀ name ∈ entry.2.names, .literal name ∈ members.symbols
  | .nil, _, hentry => nomatch hentry
  | .cons name tail rest, entry, hentry => by
    rcases List.mem_cons.1 hentry with rfl | hentry
    · refine ⟨List.mem_cons_self, fun other h => ?_⟩
      simp only [Members.symbols, List.mem_cons, List.mem_append]
      exact .inr (.inl (tail.literal_mem other h))
    · obtain ⟨hname, hnames⟩ := rest.literal_mem entry hentry
      simp only [Members.symbols, List.mem_cons, List.mem_append]
      exact ⟨.inr (.inr hname), fun other h => .inr (.inr (hnames other h))⟩

theorem Elements.literal_mem : ∀ (elements : Elements), ∀ generator ∈ elements.denote,
    ∀ name ∈ generator.names, .literal name ∈ elements.symbols
  | .nil, _, hgenerator, _, _ => nomatch hgenerator
  | .term value rest, generator, hgenerator, name, h => by
    apply List.mem_append.2
    rcases List.mem_cons.1 hgenerator with rfl | hgenerator
    · exact .inl (value.literal_mem name h)
    · exact .inr (rest.literal_mem generator hgenerator name h)
  | .field other tail rest, generator, hgenerator, name, h => by
    simp only [Elements.symbols, List.mem_cons, List.mem_append]
    rcases List.mem_cons.1 hgenerator with rfl | hgenerator
    · rw [Generator.names_single] at h
      rcases List.mem_cons.1 h with rfl | h
      · exact .inl rfl
      · exact .inr (.inl (tail.literal_mem name h))
    · exact .inr (.inr (rest.literal_mem generator hgenerator name h))

end

theorem levels_le_levelsOfGroups {groups : List Group} {group : Group} (h : group ∈ groups) :
    group.levels ≤ levelsOfGroups groups := by
  induction groups with
  | nil => simp at h
  | cons first rest ih =>
    rcases List.mem_cons.1 h with rfl | h
    · exact Nat.le_max_left _ _
    · exact Nat.le_trans (ih h) (Nat.le_max_right _ _)

namespace Text

theorem denote_ne_nil (text : Text) : text.denote ≠ [] := by
  cases text <;> simp [denote]

theorem isGroup_of_mem (text : Text) : ∀ root ∈ text.denote, root.IsGroup := by
  intro root hroot
  cases text with
  | groups first rest =>
    obtain ⟨group, -, rfl⟩ := List.mem_map.1 hroot
    cases group <;> trivial
  | fields members =>
    obtain rfl := List.mem_singleton.1 hroot
    trivial

/-- The object of a text without braces has no level of its own, but every field in it opens one. -/
theorem height_le {text : Text} {limit : Nat} (hpos : 0 < limit) (h : text.levels ≤ limit) :
    ∀ root ∈ text.denote, root.height ≤ limit := by
  intro root hroot
  cases text with
  | groups first rest =>
    obtain ⟨group, hgroup, rfl⟩ := List.mem_map.1 hroot
    exact Nat.le_trans group.height_le (Nat.le_trans (levels_le_levelsOfGroups hgroup) h)
  | fields members =>
    obtain rfl := List.mem_singleton.1 hroot
    obtain ⟨below, rfl⟩ := Nat.exists_eq_succ_of_ne_zero hpos.ne'
    apply height_addList_le
    intro entry hentry
    exact Nat.le_of_lt_succ (Nat.lt_of_lt_of_le (members.height_lt entry hentry) h)

theorem literal_mem (text : Text) :
    ∀ root ∈ text.denote, ∀ name ∈ root.names, .literal name ∈ text.symbols := by
  intro root hroot name hname
  cases text with
  | groups first rest =>
    obtain ⟨group, hgroup, rfl⟩ := List.mem_map.1 hroot
    rw [symbols, ← List.flatMap_cons]
    exact List.mem_flatMap.2 ⟨group, hgroup, group.literal_mem name hname⟩
  | fields members =>
    obtain rfl := List.mem_singleton.1 hroot
    exact forall_names_addList (p := fun name => .literal name ∈ members.symbols)
      members.literal_mem name hname

end Text

end Grammar

theorem isWritable_of_written {text : String} {source : List Char}
    (h : Written (.literal text) source) : IsWritable text := by
  cases h with
  | bare h => exact .inr h
  | quoted h => exact .inl h

theorem isUndelimited_of_written {name : String} {source : List Char}
    (h : Written (.var name) source) : IsUndelimited name.toList := by
  cases h with
  | var h => exact h

theorem Value.ofRaw?_ne_string (raw text : String) : ofRaw? raw ≠ some (.string text) := by
  intro h
  unfold ofRaw? at h
  split_ifs at h
  case neg => split at h <;> simp at h
  all_goals simp at h

theorem Symbol.eq_literal_of_leaf? {symbol : Symbol} {text : String}
    (h : symbol.leaf? = some (.value (.string text))) : symbol = .literal text := by
  cases symbol with
  | literal other => simpa [leaf?] using h
  | raw other =>
    cases hraw : Value.ofRaw? other with
    | none => simp [leaf?, hraw] at h
    | some v =>
      obtain rfl : v = .string text := by simpa [leaf?, hraw] using h
      exact absurd hraw (Value.ofRaw?_ne_string other text)
  | _ => simp [leaf?] at h

theorem Symbol.eq_var_of_leaf? {symbol : Symbol} {name : String}
    (h : symbol.leaf? = some (.var name)) : symbol = .var name := by
  cases symbol with
  | var other => simpa [leaf?] using h
  | _ => simp [leaf?] at h

/-- What is known of a generator that has been read. -/
structure Generator.WellFormed (root : Generator) : Prop where
  isGroup : root.IsGroup
  height_le : root.height ≤ 128
  isScalar {v : Value} (h : .value v ∈ root.leaves) : v.IsScalar
  isWritable {text : String} (h : .value (.string text) ∈ root.leaves) : IsWritable text
  isUndelimited {name : String} (h : .var name ∈ root.leaves) : IsUndelimited name.toList
  isWritable_name {name : String} (h : name ∈ root.names) : IsWritable name

theorem readForest_ne_nil {input : String} {forest : Forest} (h : readForest input = .ok forest) :
    forest ≠ [] := by
  obtain ⟨symbols, text, -, -, rfl⟩ := (Grammar.readForest_eq_ok_iff _ _).1 h
  exact text.denote_ne_nil

theorem wellFormed_of_readForest {input : String} {forest : Forest}
    (h : readForest input = .ok forest) : ∀ root ∈ forest, root.WellFormed := by
  intro root hroot
  obtain ⟨symbols, text, hlex, ⟨rfl, -, hlevels⟩, rfl⟩ := (Grammar.readForest_eq_ok_iff _ _).1 h
  -- leaves and names come from symbols of the text, and each of these is written there
  have hwritten : ∀ symbol ∈ text.symbols, ∃ source, Written symbol source := by
    rw [symbols?_lex] at hlex
    exact fun symbol => exists_written_of_symbolsOf hlex
  have hleaf : ∀ leaf ∈ root.leaves, ∃ symbol ∈ text.symbols, symbol.leaf? = some leaf :=
    fun leaf hleaf => List.mem_filterMap.1 (text.leaves_subset root hroot hleaf)
  refine ⟨text.isGroup_of_mem root hroot, text.height_le (by decide) hlevels root hroot, ?_, ?_, ?_,
    ?_⟩
  · intro v hv
    exact Grammar.isScalar_of_readForest h hroot hv
  · intro body hbody
    obtain ⟨symbol, hsymbol, hyields⟩ := hleaf _ hbody
    obtain rfl := Symbol.eq_literal_of_leaf? hyields
    obtain ⟨source, hsource⟩ := hwritten _ hsymbol
    exact isWritable_of_written hsource
  · intro name hname
    obtain ⟨symbol, hsymbol, hyields⟩ := hleaf _ hname
    obtain rfl := Symbol.eq_var_of_leaf? hyields
    obtain ⟨source, hsource⟩ := hwritten _ hsymbol
    exact isUndelimited_of_written hsource
  · intro name hname
    obtain ⟨source, hsource⟩ := hwritten _ (text.literal_mem root hroot name hname)
    exact isWritable_of_written hsource

/-- Arrays in arrays. -/
def nestedArrays : Nat → Generator
  | 0 => .array []
  | n + 1 => .array [nestedArrays n]

theorem height_nestedArrays (n : Nat) : (nestedArrays n).height = n + 1 := by
  induction n with
  | zero => rfl
  | succ n ih => simp [nestedArrays, Generator.height, Generator.heightOfElements, ih]

theorem cost_nestedArrays (n : Nat) : (nestedArrays n).cost = n + 1 := by
  induction n with
  | zero => rfl
  | succ n ih => simp [nestedArrays, Generator.cost, Generator.costOfElements, ih, Nat.add_comm]

theorem isPrintable_nestedArrays (n : Nat) : (nestedArrays n).IsPrintable := by
  induction n with
  | zero => trivial
  | succ n ih => exact ⟨ih, trivial⟩

theorem exists_readForest_nestedArrays {n : Nat} (h : n < nestingLimit) :
    ∃ input, readForest input = .ok [nestedArrays n] := by
  obtain ⟨items, hitems⟩ :=
    Generator.exists_printsElements [nestedArrays n] ⟨isPrintable_nestedArrays n, trivial⟩
  have hgroup : (nestedArrays n).IsGroup := by cases n <;> trivial
  refine ⟨_, Grammar.readForest_of_printsElements (by simp) ?_ ?_ hitems⟩
  · simpa using hgroup
  · simpa [cost_nestedArrays] using h

/-- A forest that is read has roots in braces or brackets, of at most as many levels as may be
nested, and all its leaves and names have a notation. Scalars for its variables nest its values no
deeper, and as many levels as that do occur. -/
theorem readForest_shape :
    (∀ input forest, readForest input = .ok forest →
      forest ≠ [] ∧ (∀ root ∈ forest, root.WellFormed) ∧
        ∀ bindings : Bindings, (∀ name v, bindings.get? name = some v → v.IsScalar) →
          ∀ v ∈ forest.evaluate bindings, v.height ≤ 128) ∧
      ∃ input root, readForest input = .ok [root] ∧ root.height = 128 := by
  apply And.intro
  · intro input forest h
    have hwell := wellFormed_of_readForest h
    refine ⟨readForest_ne_nil h, hwell, fun bindings hbindings v hv => ?_⟩
    obtain ⟨root, hroot, rfl⟩ := List.mem_map.1 hv
    have hle := Generator.height_evaluate_le hbindings fun w => (hwell root hroot).isScalar
    exact Nat.le_trans hle (hwell root hroot).height_le
  · obtain ⟨input, hinput⟩ := exists_readForest_nestedArrays (n := 127) (by decide)
    exact ⟨input, _, hinput, height_nestedArrays 127⟩

/-- A field that is given twice, by a path and by braces. -/
def sharedField : Generator :=
  .single "a" (.object (.cons "b" trivial (.array [.var "x", .value (.string "c d")])
    (.cons "e" (show "b" < "e" by decide) (.var "x") .nil)))

theorem readForest_shape_sharedField :
    readForest "a.b=[$x \"c d\"] a=\x7be=$x\x7d" = .ok [sharedField] ∧ sharedField.WellFormed ∧
      ∃ bindings, Bindings.ofSubstitutions ["x=:-1"] = .ok bindings ∧
        (sharedField.evaluate bindings).height ≤ 128 := by
  have hread : readForest "a.b=[$x \"c d\"] a=\x7be=$x\x7d" = .ok [sharedField] := by cbv
  obtain ⟨bindings, hbindings⟩ : ∃ bindings,
      Bindings.ofSubstitutions ["x=:-1"] = .ok bindings := ⟨_, by cbv⟩
  obtain ⟨-, hroots, hvalues⟩ := readForest_shape.1 _ _ hread
  have hheight := hvalues bindings (fun name v => Bindings.isScalar_of_ofSubstitutions hbindings)
    (sharedField.evaluate bindings) List.mem_cons_self
  exact ⟨hread, hroots _ List.mem_cons_self, bindings, hbindings, hheight⟩

end JsonShorthand
