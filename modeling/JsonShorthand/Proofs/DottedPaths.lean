import JsonShorthand.Proofs.Replay
import JsonShorthand.Proofs.Source
import JsonShorthand.Proofs.Unambiguity

namespace JsonShorthand

namespace Generator

variable {entries : List (String × Generator)}

theorem mergeAll_single (hne : entries ≠ []) (present : Generator) :
    present.mergeAll (entries.map fun entry => single entry.1 entry.2) =
      object (present.fieldsOf.addList entries) := by
  induction entries generalizing present with
  | nil => contradiction
  | cons entry entries ih =>
    rw [List.map_cons, mergeAll_cons, merge_single]
    cases entries with
    | nil => rfl
    | cons second entries => exact ih (List.cons_ne_nil second entries) _

theorem addList_map_name {later : List Generator} {merged : Generator} (hne : later ≠ [])
    (h : ∀ present, mergeAll present later = present.merge merged) (fields : Fields Generator none)
    (name : String) :
    fields.addList (later.map fun generator => (name, generator)) = fields.add name merged := by
  apply Fields.ext
  intro query
  rw [Fields.get?_addList]
  by_cases hname : query = name
  · subst hname
    have hunder : Fields.under query (later.map fun generator => (query, generator)) = later := by
      simp [Fields.under, List.filterMap_map]
    rw [hunder, if_neg (by simpa using hne), h, get?_add_self_eq]
  · have hunder : Fields.under query (later.map fun generator => (name, generator)) = [] := by
      simp [Fields.under, Ne.symm hname]
    rw [hunder, Fields.get?_add_of_ne _ _ hname]
    rfl

/-- Chains with the same path merge one after the other as one chain with all their ends. -/
theorem mergeAll_chain (hnodup : (entries.map Prod.fst).Nodup) (hne : entries ≠ [])
    (path : List String) (present : Generator) :
    present.mergeAll (entries.map fun entry => chain path (single entry.1 entry.2)) =
      present.merge (chain path (object (Fields.addList .nil entries))) := by
  -- under the first name of the path the same chains meet, each without that name
  induction path generalizing present with
  | nil =>
    calc
      _ = object (present.fieldsOf.addList entries) := mergeAll_single hne present
      _ = object (present.fieldsOf.addAll (Fields.addList .nil entries)) := by
        rw [Fields.addList_eq_addAll hnodup]
      _ = _ := (merge_object_eq present _).symm
  | cons name path ih =>
    let ends := entries.map fun entry => chain path (single entry.1 entry.2)
    have hends : ends ≠ [] := by simpa [ends] using hne
    calc
      _ = present.mergeAll
          ((ends.map fun g => (name, g)).map fun entry => single entry.1 entry.2) := by
        simp only [ends, List.map_map]
        rfl
      _ = object (present.fieldsOf.addList (ends.map fun g => (name, g))) :=
        mergeAll_single (by simpa using hends) present
      _ = object (present.fieldsOf.add name (chain path (object (Fields.addList .nil entries)))) := by
        rw [addList_map_name hends ih]
      _ = _ := (merge_single present _ name).symm

end Generator

namespace Grammar

structure Member where
  name : String
  tail : Tail

def Member.symbols (member : Member) : List Symbol := .literal member.name :: member.tail.symbols

def Member.entry (member : Member) : String × Generator := (member.name, member.tail.denote)

def Members.ofList : List Member → Members
  | [] => .nil
  | member :: rest => .cons member.name member.tail (ofList rest)

namespace Members

@[simp] theorem symbols_ofList (list : List Member) :
    (ofList list).symbols = list.flatMap Member.symbols := by
  induction list with
  | nil => rfl
  | cons member rest ih => simp [ofList, symbols, Member.symbols, ih]

@[simp] theorem entries_ofList (list : List Member) :
    (ofList list).entries = list.map Member.entry := by
  induction list with
  | nil => rfl
  | cons member rest ih => simp [ofList, entries, Member.entry, ih]

theorem levels_ofList_le_iff {list : List Member} {limit : Nat} :
    (ofList list).levels ≤ limit ↔ ∀ member ∈ list, member.tail.levels ≤ limit := by
  induction list with
  | nil => simp [ofList, levels]
  | cons member rest ih => simp [ofList, levels, ih]

end Members

theorem rawAccepted_flatMap_iff {list : List Member} :
    RawAccepted (list.flatMap Member.symbols) ↔ ∀ member ∈ list, RawAccepted member.symbols := by
  induction list with
  | nil => simp [RawAccepted]
  | cons member rest ih => simp [rawAccepted_append_iff, ih]

theorem readForest_eq_ok_iff_of_members {input : String} {list : List Member}
    (hlex : (lex input).symbols? = some (list.flatMap Member.symbols)) (forest : Forest) :
    readForest input = .ok forest ↔
      (∀ member ∈ list, RawAccepted member.symbols ∧ member.tail.levels ≤ nestingLimit) ∧
        [.object (Fields.addList .nil (list.map Member.entry))] = forest := by
  have htext : (lex input).symbols? = some (Text.fields (.ofList list)).symbols := by
    rw [hlex, Text.symbols, Members.symbols_ofList]
  rw [readForest_eq_ok_iff_of_symbols htext, Text.symbols, Members.symbols_ofList,
    rawAccepted_flatMap_iff, Text.levels, Members.levels_ofList_le_iff, Text.denote,
    Members.entries_ofList, ← and_assoc, ← forall₂_and]

structure Path where
  first : String
  names : List String

def Path.symbols (path : Path) : List Symbol :=
  .literal path.first :: path.names.flatMap fun name => [.dot, .literal name]

def Tail.behind (names : List String) (tail : Tail) : Tail := names.foldr Tail.path tail

theorem Tail.symbols_behind (names : List String) (tail : Tail) :
    (tail.behind names).symbols =
      (names.flatMap fun name => [.dot, .literal name]) ++ tail.symbols := by
  induction names with
  | nil => rfl
  | cons name names ih => simpa [behind, symbols] using ih

theorem Tail.levels_behind (names : List String) (tail : Tail) :
    (tail.behind names).levels = names.length + tail.levels := by
  induction names with
  | nil => simp [behind]
  | cons name names ih =>
    calc
      _ = (tail.behind names).levels + 1 := rfl
      _ = (name :: names).length + tail.levels := by rw [ih, List.length_cons]; omega

theorem Tail.denote_behind (names : List String) (tail : Tail) :
    (tail.behind names).denote = .chain names tail.denote := by
  induction names with
  | nil => rfl
  | cons name names ih => exact congrArg (Generator.single name) ih

namespace Path

/-- The field with a path and braces around other fields. -/
def braced (path : Path) (members : List Member) : Member :=
  ⟨path.first, (Tail.assign (.group (.object (.ofList members)))).behind path.names⟩

/-- A field with a path in front of its own. -/
def dotted (path : Path) (member : Member) : Member :=
  ⟨path.first, (Tail.path member.name member.tail).behind path.names⟩

variable (path : Path) (members : List Member) (member : Member)

theorem symbols_braced :
    (path.braced members).symbols =
      path.symbols ++ .assign :: .openBrace :: (members.flatMap Member.symbols ++ [.closeBrace]) := by
  simp [braced, Member.symbols, Tail.symbols_behind, symbols, Tail.symbols, Term.symbols,
    Group.symbols]

theorem symbols_dotted : (path.dotted member).symbols = path.symbols ++ .dot :: member.symbols := by
  simp [dotted, Member.symbols, Tail.symbols_behind, symbols, Tail.symbols]

theorem endsAtDot_of_mem {symbol : Symbol} (h : symbol ∈ path.symbols) : symbol.endsAtDot := by
  rcases List.mem_cons.1 h with rfl | h
  · rfl
  · obtain ⟨name, -, hname⟩ := List.mem_flatMap.1 h
    rcases List.mem_pair.1 hname with rfl | rfl <;> rfl

variable {path members}

theorem levels_dotted_lt (h : member ∈ members) :
    (path.dotted member).tail.levels < (path.braced members).tail.levels := by
  have hmember := Members.levels_ofList_le_iff.1 (Nat.le_refl _) member h
  simp only [dotted, braced, Tail.levels_behind, Tail.levels, Term.levels, Group.levels]
  omega

theorem rawAccepted_dotted (hraws : RawAccepted (path.braced members).symbols)
    (h : member ∈ members) : RawAccepted (path.dotted member).symbols := by
  rw [symbols_braced, rawAccepted_append_iff, rawAccepted_cons_iff, rawAccepted_cons_iff,
    rawAccepted_append_iff, rawAccepted_flatMap_iff] at hraws
  rw [symbols_dotted, rawAccepted_append_iff, rawAccepted_cons_iff]
  obtain ⟨hpath, -, -, hmembers, -⟩ := hraws
  exact ⟨hpath, by simp, hmembers member h⟩

/-- What the braces add, the dots add one by one. -/
theorem addList_dotted (hdistinct : (members.map Member.name).Nodup) (hne : members ≠ [])
    (fields : Fields Generator none) :
    fields.addList (members.map fun member => (path.dotted member).entry) =
      fields.addList [(path.braced members).entry] := by
  let entries := members.map Member.entry
  let ends := entries.map fun entry => Generator.chain path.names (.single entry.1 entry.2)
  have hnodup : (entries.map Prod.fst).Nodup := by
    rw [List.map_map]
    exact hdistinct
  have hentries : entries ≠ [] := by simpa [entries] using hne
  have hmerge := Generator.mergeAll_chain hnodup hentries path.names
  have hdotted : (members.map fun member => (path.dotted member).entry) =
      ends.map fun generator => (path.first, generator) := by
    simp [ends, entries, Member.entry, dotted, Tail.denote_behind, Tail.denote]
  have hbraced : (path.braced members).entry =
      (path.first, Generator.chain path.names (.object (Fields.addList .nil entries))) := by
    simp [Member.entry, braced, Tail.denote_behind, Tail.denote, Term.denote, Group.denote, entries]
  rw [hdotted, hbraced, Generator.addList_map_name (by simpa [ends] using hentries) hmerge]
  rfl

end Path

/-- However the tokens are spaced, dots may take the place of braces. -/
theorem readForest_of_braced {braced dotted : String} {before members after : List Member}
    {path : Path}
    (hbraced : (lex braced).symbols? =
      some ((before ++ path.braced members :: after).flatMap Member.symbols))
    (hdotted : (lex dotted).symbols? =
      some ((before ++ members.map path.dotted ++ after).flatMap Member.symbols))
    (hne : members ≠ []) (hdistinct : (members.map Member.name).Nodup) {forest : Forest}
    (h : readForest braced = .ok forest) : readForest dotted = .ok forest := by
  rw [readForest_eq_ok_iff_of_members hbraced] at h
  rw [readForest_eq_ok_iff_of_members hdotted]
  obtain ⟨hmembers, rfl⟩ := h
  simp only [List.forall_mem_append, List.forall_mem_cons] at hmembers
  obtain ⟨hbefore, ⟨hraws, hlevels⟩, hafter⟩ := hmembers
  refine ⟨?_, ?_⟩
  · simp only [List.forall_mem_append, List.forall_mem_map]
    refine ⟨⟨hbefore, fun member hmember => ?_⟩, hafter⟩
    exact ⟨Path.rawAccepted_dotted member hraws hmember,
      Nat.le_trans (Nat.le_of_lt (Path.levels_dotted_lt member hmember)) hlevels⟩
  · simp only [List.map_append, List.map_cons, List.map_map, Fields.addList_append]
    rw [Function.comp_def, Path.addList_dotted hdistinct hne]
    rfl

/-- A text and what its tokens stand for. -/
structure Spelled {α : Type} (symbols : α → List Symbol) where
  text : String
  item : α
  symbols_eq : (lex text).symbols? = some (symbols item)

abbrev MemberText := Spelled Member.symbols

abbrev MembersText := Spelled (List.flatMap Member.symbols)

abbrev PathText := Spelled Path.symbols

theorem Spelled.spells {α : Type} {symbols : α → List Symbol} (spelled : Spelled symbols) :
    Spells spelled.text.toList (symbols spelled.item) := Spells.of_symbolsOf spelled.symbols_eq

theorem spells_join {α : Type} {symbols : α → List Symbol} (texts : List (Spelled symbols)) :
    Spells (" ".intercalate (texts.map Spelled.text)).toList
      (texts.flatMap fun spelled => symbols spelled.item) := by
  have hjoin : (" ".intercalate (texts.map Spelled.text)).toList =
      [' '].intercalate (texts.map fun spelled => spelled.text.toList) := by
    simp [String.toList_intercalate, Function.comp_def]
  rw [hjoin]
  exact Spells.intercalate fun spelled _ => spelled.spells

theorem symbols?_lex_join (texts : List MembersText) :
    (lex (" ".intercalate (texts.map Spelled.text))).symbols? =
      some ((texts.flatMap Spelled.item).flatMap Member.symbols) := by
  rw [symbols?_lex, (spells_join texts).symbolsOf_eq, List.flatMap_assoc]

def PathText.braced (path : PathText) (members : List MemberText) : MembersText where
  text := path.text ++ "=\x7b" ++ " ".intercalate (members.map Spelled.text) ++ "\x7d"
  item := [path.item.braced (members.map Spelled.item)]
  symbols_eq := by
    have hbraces : Spells ('=' :: _) (.assign :: _) :=
      .mark_cons (by decide) (fun _ => rfl) (spells_join members).braces
    have htext := path.spells.append hbraces (Spells.isDelimiter_of_head? rfl _)
    rw [symbols?_lex, List.flatMap_singleton, Path.symbols_braced, List.flatMap_map]
    simpa using htext.symbolsOf_eq

def PathText.dotted (path : PathText) (member : MemberText) : MembersText where
  text := path.text ++ "." ++ member.text
  item := [path.item.dotted member.item]
  symbols_eq := by
    have htext := Spells.append_dot path.symbols_eq (fun _ h => path.item.endsAtDot_of_mem h)
      member.spells
    rw [symbols?_lex, List.flatMap_singleton, Path.symbols_dotted]
    simpa using htext.symbolsOf_eq

/-- A text with fields in braces behind a path is read as the text that has the path and a dot in
front of each of these fields. -/
theorem readForest_dots_of_braces (before after : List MembersText) (path : PathText)
    {members : List MemberText} (hne : members ≠ [])
    (hdistinct : (members.map fun member => member.item.name).Nodup) {forest : Forest}
    (h : readForest (" ".intercalate (before.map Spelled.text ++
      [path.text ++ "=\x7b" ++ " ".intercalate (members.map Spelled.text) ++ "\x7d"] ++
        after.map Spelled.text)) = .ok forest) :
    readForest (" ".intercalate (before.map Spelled.text ++
      members.map (fun member => path.text ++ "." ++ member.text) ++
        after.map Spelled.text)) = .ok forest := by
  have hbraced := symbols?_lex_join (before ++ [PathText.braced path members] ++ after)
  have hdotted := symbols?_lex_join (before ++ members.map (PathText.dotted path) ++ after)
  have hitem : (before ++ [PathText.braced path members] ++ after).flatMap Spelled.item =
      before.flatMap Spelled.item ++
        path.item.braced (members.map Spelled.item) :: after.flatMap Spelled.item := by
    simp [PathText.braced]
  have hitems : (before ++ members.map (PathText.dotted path) ++ after).flatMap Spelled.item =
      before.flatMap Spelled.item ++
        (members.map Spelled.item).map path.item.dotted ++ after.flatMap Spelled.item := by
    rw [List.flatMap_append, List.flatMap_append, List.flatMap_map, List.map_map]
    congr 2
    exact List.map_eq_flatMap.symm
  rw [hitem, List.map_append, List.map_append] at hbraced
  rw [hitems, List.map_append, List.map_append, List.map_map] at hdotted
  apply readForest_of_braced hbraced hdotted (by simpa using hne) _ h
  rwa [List.map_map]

/-- Behind a scalar that has replaced an object, and before a field that leads further in. -/
theorem readForest_dots_of_braces_replaced :
    ∃ forest, readForest "a.b.c=:1 a.b=x a.\"b\"={c=[$y] d.e=:2} a.b.d.f=z" = .ok forest ∧
      readForest "a.b.c=:1 a.b=x a.\"b\".c=[$y] a.\"b\".d.e=:2 a.b.d.f=z" = .ok forest := by
  let before : MembersText := ⟨"a.b.c=:1 a.b=x",
    [⟨"a", (Tail.assign (.raw "1")).behind ["b", "c"]⟩,
      ⟨"a", (Tail.assign (.literal "x")).behind ["b"]⟩], by cbv⟩
  let path : PathText := ⟨"a.\"b\"", ⟨"a", ["b"]⟩, by cbv⟩
  let array : MemberText :=
    ⟨"c=[$y]", ⟨"c", .assign (.group (.array (.term (.var "y") .nil)))⟩, by cbv⟩
  let nested : MemberText := ⟨"d.e=:2", ⟨"d", (Tail.assign (.raw "2")).behind ["e"]⟩, by cbv⟩
  let after : MembersText := ⟨"a.b.d.f=z",
    [⟨"a", (Tail.assign (.literal "z")).behind ["b", "d", "f"]⟩], by cbv⟩
  have hread : readForest "a.b.c=:1 a.b=x a.\"b\"={c=[$y] d.e=:2} a.b.d.f=z" =
      .ok [.chain ["a", "b"] (.object (.cons "c" trivial (.array [.var "y"])
        (.cons "d" (show "c" < "d" by decide) (.object (.cons "e" trivial (.value (.integer 2))
          (.cons "f" (show "e" < "f" by decide) (.value (.string "z")) .nil))) .nil)))] := by cbv
  have hdots := readForest_dots_of_braces [before] [after] path (List.cons_ne_nil array [nested])
    (by decide) hread
  exact ⟨_, hread, hdots⟩

/-- A name that comes twice in the braces replaces itself before it meets what stands there. -/
example : readForest "a.b.c=:1 a={b=:2 b={}}" =
      .ok [.chain ["a", "b", "c"] (.value (.integer 1))] ∧
    readForest "a.b.c=:1 a.b=:2 a.b={}" = .ok [.chain ["a", "b"] (.object .nil)] :=
  ⟨by cbv, by cbv⟩

end Grammar

end JsonShorthand
