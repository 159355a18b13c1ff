import JsonShorthand.Proofs.Derivation
import JsonShorthand.Proofs.Entries
import JsonShorthand.Proofs.Numerals

namespace JsonShorthand

/-- A text that can be written as a literal, with quotes or without. -/
def IsWritable (text : String) : Prop :=
  text.toList.getLast? ≠ some '\\' ∨ IsBare text.toList

namespace Generator

def IsGroup : Generator → Prop
  | object _ | array _ => True
  | _ => False

mutual

/-- The levels that are open at one place while a generator is read. -/
def cost : Generator → Nat
  | value _ | var _ => 0
  | object fields => if fields.isEmpty then 1 else 2 + costOfFields fields
  | array elements => 1 + costOfElements elements

def costOfFields {bound : Option String} : Fields Generator bound → Nat
  | .nil => 0
  | .cons _ _ generator rest => max (cost generator) (costOfFields rest)

def costOfElements : List Generator → Nat
  | [] => 0
  | generator :: rest => max (cost generator) (costOfElements rest)

end

mutual

/-- Generators of which all leaves and names have a notation. -/
def IsPrintable : Generator → Prop
  | value (.string text) => IsWritable text
  | value v => v.IsRaw
  | var name => IsUndelimited name.toList
  | object fields => PrintableFields fields
  | array elements => PrintableElements elements

def PrintableFields {bound : Option String} : Fields Generator bound → Prop
  | .nil => True
  | .cons name _ generator rest => IsWritable name ∧ IsPrintable generator ∧ PrintableFields rest

def PrintableElements : List Generator → Prop
  | [] => True
  | generator :: rest => IsPrintable generator ∧ PrintableElements rest

end

mutual

/-- A generator and a text for it. The fields of an object may stand in any order, and literals may
have quotes or not. -/
inductive Prints : Generator → List Char → Prop where
  | string {text : String} {source : List Char} (h : Written (.literal text) source) :
    Prints (value (.string text)) source
  | raw {v : Value} (h : v.IsRaw) : Prints (value v) (':' :: v.scalar)
  | var {name : String} (h : IsUndelimited name.toList) : Prints (var name) ('$' :: name.toList)
  | object {fields : Fields Generator none} {entries : List (String × Generator)}
    {items : List (List Char)} (hperm : entries.Perm fields.toList)
    (h : PrintsEntries entries items) :
    Prints (object fields) ('{' :: ([' '].intercalate items ++ ['}']))
  | array {elements : List Generator} {items : List (List Char)}
    (h : PrintsElements elements items) :
    Prints (array elements) ('[' :: ([' '].intercalate items ++ [']']))

inductive PrintsEntries : List (String × Generator) → List (List Char) → Prop where
  | nil : PrintsEntries [] []
  | cons {name : String} {generator : Generator} {source item : List Char}
    {entries : List (String × Generator)} {items : List (List Char)}
    (hname : Written (.literal name) source) (hvalue : Prints generator item)
    (hrest : PrintsEntries entries items) :
    PrintsEntries ((name, generator) :: entries) ((source ++ '=' :: item) :: items)

inductive PrintsElements : List Generator → List (List Char) → Prop where
  | nil : PrintsElements [] []
  | cons {generator : Generator} {item : List Char} {elements : List Generator}
    {items : List (List Char)} (hfirst : Prints generator item)
    (hrest : PrintsElements elements items) :
    PrintsElements (generator :: elements) (item :: items)

end

theorem printableElements_of_forall {elements : List Generator}
    (h : ∀ generator ∈ elements, generator.IsPrintable) : PrintableElements elements := by
  induction elements with
  | nil => trivial
  | cons generator rest ih =>
    have hrest := ih fun other hother => h other (List.mem_cons_of_mem _ hother)
    exact ⟨h generator List.mem_cons_self, hrest⟩

theorem exists_written {text : String} (h : IsWritable text) :
    ∃ source, Written (.literal text) source := by
  rcases h with h | h
  · exact ⟨_, .quoted h⟩
  · exact ⟨_, .bare h⟩

mutual

theorem exists_prints : ∀ generator : Generator, generator.IsPrintable →
    ∃ text, Prints generator text
  | value v, h => by
    cases v with
    | string text =>
      obtain ⟨source, hsource⟩ := exists_written h
      exact ⟨source, .string hsource⟩
    | _ => exact ⟨_, .raw h⟩
  | var name, h => ⟨_, .var h⟩
  | object fields, h => by
    obtain ⟨items, hitems⟩ := exists_printsEntries fields h
    exact ⟨_, .object (List.Perm.refl _) hitems⟩
  | array elements, h => by
    obtain ⟨items, hitems⟩ := exists_printsElements elements h
    exact ⟨_, .array hitems⟩

theorem exists_printsEntries {bound : Option String} : ∀ fields : Fields Generator bound,
    PrintableFields fields → ∃ items, PrintsEntries fields.toList items
  | .nil, _ => ⟨[], .nil⟩
  | .cons name _ generator rest, h => by
    obtain ⟨hname, hgenerator, hrest⟩ := h
    obtain ⟨source, hsource⟩ := exists_written hname
    obtain ⟨item, hitem⟩ := exists_prints generator hgenerator
    obtain ⟨items, hitems⟩ := exists_printsEntries rest hrest
    exact ⟨_, .cons hsource hitem hitems⟩

theorem exists_printsElements : ∀ elements : List Generator, PrintableElements elements →
    ∃ items, PrintsElements elements items
  | [], _ => ⟨[], .nil⟩
  | generator :: rest, h => by
    obtain ⟨hgenerator, hrest⟩ := h
    obtain ⟨item, hitem⟩ := exists_prints generator hgenerator
    obtain ⟨items, hitems⟩ := exists_printsElements rest hrest
    exact ⟨_, .cons hitem hitems⟩

end

theorem cost_le_costOfFields {bound : Option String} (fields : Fields Generator bound)
    {entry : String × Generator} (h : entry ∈ fields.toList) :
    entry.2.cost ≤ costOfFields fields := by
  induction fields with
  | nil => simp [Fields.toList] at h
  | cons name above generator rest ih =>
    rcases List.mem_cons.1 h with rfl | h
    · exact Nat.le_max_left _ _
    · exact Nat.le_trans (ih h) (Nat.le_max_right _ _)

theorem cost_le_costOfElements {elements : List Generator} {generator : Generator}
    (h : generator ∈ elements) : generator.cost ≤ costOfElements elements := by
  induction elements with
  | nil => simp at h
  | cons first rest ih =>
    rcases List.mem_cons.1 h with rfl | h
    · exact Nat.le_max_left _ _
    · exact Nat.le_trans (ih h) (Nat.le_max_right _ _)

end Generator

namespace Grammar

open Generator (Prints PrintsEntries PrintsElements)

/-- A derivation of a printed generator. -/
structure Term.Expresses (term : Term) (generator : Generator) (text : List Char) : Prop where
  denote_eq : term.denote = generator
  levels_le : term.levels ≤ generator.cost
  accepted : RawAccepted term.symbols
  spells : Spells text term.symbols

structure Members.Expresses (members : Members) (entries : List (String × Generator))
    (items : List (List Char)) : Prop where
  entries_eq : members.entries = entries
  levels_le (bound : Nat) (h : ∀ entry ∈ entries, entry.2.cost < bound) : members.levels ≤ bound
  accepted : RawAccepted members.symbols
  spells : Spells ([' '].intercalate items) members.symbols

def Elements.ofTerms (terms : List Term) : Elements := terms.foldr .term .nil

theorem Elements.denote_ofTerms (terms : List Term) :
    (ofTerms terms).denote = terms.map Term.denote := by
  induction terms with
  | nil => rfl
  | cons term terms ih => exact congrArg (term.denote :: ·) ih

theorem Elements.symbols_ofTerms (terms : List Term) :
    (ofTerms terms).symbols = terms.flatMap Term.symbols := by
  induction terms with
  | nil => rfl
  | cons term terms ih => exact congrArg (term.symbols ++ ·) ih

theorem Elements.levels_ofTerms_le {terms : List Term} {bound : Nat}
    (h : ∀ term ∈ terms, term.levels ≤ bound) : (ofTerms terms).levels ≤ bound := by
  induction terms with
  | nil => exact Nat.zero_le _
  | cons term terms ih =>
    have hrest := ih fun other hother => h other (List.mem_cons_of_mem _ hother)
    exact Nat.max_le.2 ⟨h term List.mem_cons_self, hrest⟩

/-- Derivations of printed elements. -/
structure ExpressElements (terms : List Term) (elements : List Generator)
    (items : List (List Char)) : Prop where
  denote_eq : terms.map Term.denote = elements
  levels_le (bound : Nat) (h : ∀ generator ∈ elements, generator.cost ≤ bound) :
    ∀ term ∈ terms, term.levels ≤ bound
  accepted : RawAccepted (terms.flatMap Term.symbols)
  spells : Spells ([' '].intercalate items) (terms.flatMap Term.symbols)

theorem rawAccepted_singleton {symbol : Symbol}
    (h : ∀ text, symbol = .raw text → (Value.ofRaw? text).isSome) : RawAccepted [symbol] :=
  rawAccepted_cons_iff.2 ⟨h, by simp [RawAccepted]⟩

theorem Term.expresses_raw {v : Value} (h : v.IsRaw) :
    (Term.raw (.ofList v.scalar)).Expresses (.value v) (':' :: v.scalar) := by
  have hread := Value.ofRaw?_scalar h
  have hwritten : Written (.raw (.ofList v.scalar)) (':' :: (String.ofList v.scalar).toList) := by
    apply Written.raw
    rw [String.toList_ofList]
    exact Value.isUndelimited_scalar h
  refine ⟨?_, Nat.zero_le _, ?_, ?_⟩
  · simp [Term.denote, hread]
  · apply rawAccepted_singleton
    intro text htext
    obtain rfl := Symbol.raw.inj htext
    simp [hread]
  · rw [String.toList_ofList] at hwritten
    exact Spells.of_written hwritten

theorem Members.Expresses.object {members : Members} {fields : Fields Generator none}
    {entries : List (String × Generator)} {items : List (List Char)}
    (hperm : entries.Perm fields.toList) (h : members.Expresses entries items) :
    (Term.group (.object members)).Expresses (.object fields)
      ('{' :: ([' '].intercalate items ++ ['}'])) := by
  refine ⟨?_, ?_, ?_, h.spells.braces⟩
  · simp only [Term.denote, Group.denote, h.entries_eq, Fields.addList_of_perm hperm]
  · simp only [Term.levels, Group.levels, Generator.cost]
    cases fields with
    | nil =>
      have hentries : entries = [] := hperm.eq_nil
      have hlevels := h.levels_le 0 (by simp [hentries])
      simpa [Fields.isEmpty] using hlevels
    | cons name above generator rest =>
      have hlevels := h.levels_le
        (Generator.costOfFields (.cons name above generator rest) + 1) fun entry hentry =>
          Nat.lt_succ_of_le (Generator.cost_le_costOfFields _ (hperm.mem_iff.1 hentry))
      simp only [Fields.isEmpty, Bool.false_eq_true, if_false]
      omega
  · have hraws := h.accepted
    simp [RawAccepted, Term.symbols, Group.symbols] at hraws ⊢
    exact hraws

theorem Members.Expresses.cons {members : Members} {entries : List (String × Generator)}
    {items : List (List Char)} (h : members.Expresses entries items) {name : String}
    {source : List Char} (hname : Written (.literal name) source) {term : Term}
    {generator : Generator} {item : List Char} (hterm : term.Expresses generator item) :
    (Members.cons name (.assign term) members).Expresses ((name, generator) :: entries)
      ((source ++ '=' :: item) :: items) := by
  refine ⟨?_, ?_, ?_, ?_⟩
  · simp only [Members.entries, Tail.denote, hterm.denote_eq, h.entries_eq]
  · intro bound hbound
    have hfirst : generator.cost < bound := hbound (name, generator) List.mem_cons_self
    have hrest := h.levels_le bound fun entry hentry => hbound entry (List.mem_cons_of_mem _ hentry)
    have hlevels := hterm.levels_le
    exact Nat.max_le.2 ⟨Nat.lt_of_le_of_lt hlevels hfirst, hrest⟩
  · simp only [Members.symbols, Tail.symbols, rawAccepted_cons_iff, rawAccepted_append_iff]
    simp [hterm.accepted, h.accepted]
  · have hvalue : Spells ('=' :: item) (.assign :: term.symbols) :=
      Spells.mark_cons (by decide) (fun rest => rfl) hterm.spells
    have hitem := (Spells.of_written hname).append hvalue (Spells.isDelimiter_of_head? rfl _)
    exact hitem.cons_intercalate h.spells

theorem ExpressElements.cons {terms : List Term} {elements : List Generator}
    {items : List (List Char)} (h : ExpressElements terms elements items) {term : Term}
    {generator : Generator} {item : List Char} (hterm : term.Expresses generator item) :
    ExpressElements (term :: terms) (generator :: elements) (item :: items) := by
  refine ⟨?_, ?_, ?_, ?_⟩
  · rw [List.map_cons, hterm.denote_eq, h.denote_eq]
  · intro bound hbound other hother
    rcases List.mem_cons.1 hother with rfl | hother
    · exact Nat.le_trans hterm.levels_le (hbound generator List.mem_cons_self)
    · exact h.levels_le bound (fun g hg => hbound g (List.mem_cons_of_mem _ hg)) other hother
  · rw [List.flatMap_cons, rawAccepted_append_iff]
    exact ⟨hterm.accepted, h.accepted⟩
  · exact hterm.spells.cons_intercalate h.spells

theorem ExpressElements.array {terms : List Term} {elements : List Generator}
    {items : List (List Char)} (h : ExpressElements terms elements items) :
    (Term.group (.array (.ofTerms terms))).Expresses (.array elements)
      ('[' :: ([' '].intercalate items ++ [']'])) := by
  have hsymbols := Elements.symbols_ofTerms terms
  refine ⟨?_, ?_, ?_, ?_⟩
  · simp only [Term.denote, Group.denote, Elements.denote_ofTerms, h.denote_eq]
  · have hlevels := Elements.levels_ofTerms_le (h.levels_le (Generator.costOfElements elements)
      fun generator hgenerator => Generator.cost_le_costOfElements hgenerator)
    simp only [Term.levels, Group.levels, Generator.cost]
    omega
  · have hraws := h.accepted
    simp [RawAccepted, Term.symbols, Group.symbols, hsymbols] at hraws ⊢
    exact hraws
  · have hspells := h.spells.brackets
    rw [← hsymbols] at hspells
    exact hspells

mutual

theorem exists_term {generator : Generator} {text : List Char} :
    Prints generator text → ∃ term : Term, term.Expresses generator text
  | .string h => by
    refine ⟨.literal _, rfl, Nat.zero_le _, ?_, Spells.of_written h⟩
    exact rawAccepted_singleton (by simp)
  | .raw h => ⟨_, Term.expresses_raw h⟩
  | .var h => by
    refine ⟨.var _, rfl, Nat.zero_le _, ?_, Spells.of_written (.var h)⟩
    exact rawAccepted_singleton (by simp)
  | .object hperm h => by
    obtain ⟨members, hmembers⟩ := exists_members h
    exact ⟨_, hmembers.object hperm⟩
  | .array h => by
    obtain ⟨terms, hterms⟩ := exists_terms h
    exact ⟨_, hterms.array⟩

theorem exists_members {entries : List (String × Generator)} {items : List (List Char)} :
    PrintsEntries entries items → ∃ members : Members, members.Expresses entries items
  | .nil => by
    have hraws : RawAccepted Members.nil.symbols := by simp [RawAccepted, Members.symbols]
    exact ⟨.nil, rfl, fun _ _ => Nat.zero_le _, hraws, Spells.nil⟩
  | .cons hname hvalue hrest => by
    obtain ⟨term, hterm⟩ := exists_term hvalue
    obtain ⟨members, hmembers⟩ := exists_members hrest
    exact ⟨_, hmembers.cons hname hterm⟩

theorem exists_terms {elements : List Generator} {items : List (List Char)} :
    PrintsElements elements items → ∃ terms : List Term, ExpressElements terms elements items
  | .nil => ⟨[], rfl, by simp, by simp [RawAccepted], Spells.nil⟩
  | .cons hfirst hrest => by
    obtain ⟨term, hterm⟩ := exists_term hfirst
    obtain ⟨terms, hterms⟩ := exists_terms hrest
    exact ⟨_, hterms.cons hterm⟩

end

theorem exists_groups {terms : List Term} (h : ∀ term ∈ terms, term.denote.IsGroup) :
    ∃ groups : List Group, terms = groups.map .group := by
  induction terms with
  | nil => exact ⟨[], rfl⟩
  | cons term terms ih =>
    obtain ⟨groups, hgroups⟩ := ih fun other hother => h other (List.mem_cons_of_mem _ hother)
    cases term with
    | group group => exact ⟨group :: groups, congrArg (Term.group group :: ·) hgroups⟩
    | _ => exact (h _ List.mem_cons_self).elim

theorem levelsOfGroups_le {groups : List Group} {bound : Nat}
    (h : ∀ group ∈ groups, group.levels ≤ bound) : levelsOfGroups groups ≤ bound := by
  induction groups with
  | nil => exact Nat.zero_le _
  | cons group groups ih =>
    have hrest := ih fun other hother => h other (List.mem_cons_of_mem _ hother)
    exact Nat.max_le.2 ⟨h group List.mem_cons_self, hrest⟩

/-- Whatever way generators are printed, they are read back. -/
theorem readForest_of_printsElements {forest : Forest} {items : List (List Char)}
    (hne : forest ≠ []) (hroots : ∀ generator ∈ forest, generator.IsGroup)
    (hcost : ∀ generator ∈ forest, generator.cost ≤ nestingLimit)
    (h : PrintsElements forest items) :
    readForest (.ofList ([' '].intercalate items)) = .ok forest := by
  obtain ⟨terms, hterms⟩ := exists_terms h
  have hgroups : ∀ term ∈ terms, term.denote.IsGroup := by
    intro term hterm
    apply hroots
    rw [← hterms.denote_eq]
    exact List.mem_map_of_mem hterm
  -- the roots are groups, so the terms for them make up a text
  obtain ⟨groups, rfl⟩ := exists_groups hgroups
  cases groups with
  | nil => exact absurd hterms.denote_eq.symm hne
  | cons first rest =>
    have hsymbols : ((first :: rest).map Term.group).flatMap Term.symbols =
        (Text.groups first rest).symbols := by
      simp [List.flatMap_map, Text.symbols, Term.symbols]
    have hlevels : levelsOfGroups (first :: rest) ≤ nestingLimit := by
      apply levelsOfGroups_le
      intro group hgroup
      exact hterms.levels_le nestingLimit hcost (.group group) (List.mem_map_of_mem hgroup)
    apply (readForest_eq_ok_iff _ _).2
    refine ⟨_, .groups first rest, ?_, ⟨rfl, ?_, hlevels⟩, ?_⟩
    · rw [symbols?_lex, String.toList_ofList, hterms.spells.symbolsOf_eq, hsymbols]
    · rw [← hsymbols]
      exact hterms.accepted
    · rw [← hterms.denote_eq, List.map_map]
      rfl

/-- Generators in braces or brackets whose leaves and names have a notation can be printed, and
whatever way they are printed, they are read back. -/
theorem readForest_print {forest : Forest} (hne : forest ≠ [])
    (hroots : ∀ generator ∈ forest, generator.IsGroup)
    (hprintable : ∀ generator ∈ forest, generator.IsPrintable)
    (hcost : ∀ generator ∈ forest, generator.cost ≤ 128) :
    (∃ items, PrintsElements forest items) ∧
      ∀ items, PrintsElements forest items →
        readForest (.ofList ([' '].intercalate items)) = .ok forest :=
  ⟨Generator.exists_printsElements forest (Generator.printableElements_of_forall hprintable),
    fun _ h => readForest_of_printsElements hne hroots hcost h⟩

def spacedName : Fields Generator none :=
  .cons "a b" trivial (.array [.value (.integer (-7)), .var "x"]) .nil

def objectAndArray : Forest := [.object spacedName, .array [.value (.string "\\")]]

theorem readForest_print_objectAndArray :
    readForest "\x7b\"a b\"=[:-7 $x]\x7d [\\]" = .ok objectAndArray := by
  have hname : "a b".toList.getLast? ≠ some '\\' := by decide
  have hbackslash : IsBare "\\".toList := ⟨by decide, by simp⟩
  have hvar : IsUndelimited "x".toList := by decide
  have hminus : Prints (.value (.integer (-7))) ":-7".toList := .raw trivial
  have hvalue := Prints.array (.cons hminus (.cons (.var hvar) .nil))
  have hobject := Prints.object (List.Perm.refl spacedName.toList)
    (.cons (.quoted hname) hvalue .nil)
  have harray := Prints.array (.cons (.string (.bare hbackslash)) .nil)
  obtain ⟨items, hitems, htext⟩ : ∃ items, PrintsElements objectAndArray items ∧
      String.ofList ([' '].intercalate items) = "\x7b\"a b\"=[:-7 $x]\x7d [\\]" :=
    ⟨_, .cons hobject (.cons harray .nil), by decide +kernel⟩
  have hroots : ∀ generator ∈ objectAndArray, generator.IsGroup := by
    simp [objectAndArray, Generator.IsGroup]
  have hprintable : ∀ generator ∈ objectAndArray, generator.IsPrintable := by
    have hfirst : Generator.IsPrintable (.object spacedName) :=
      ⟨.inl hname, ⟨trivial, hvar, trivial⟩, trivial⟩
    have hsecond : Generator.IsPrintable (.array [.value (.string "\\")]) :=
      ⟨.inr hbackslash, trivial⟩
    simp [objectAndArray, hfirst, hsecond]
  have hread := readForest_print (List.cons_ne_nil _ _) hroots hprintable (by decide)
  rw [← htext]
  exact hread.2 items hitems

end Grammar

end JsonShorthand
