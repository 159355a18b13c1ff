import JsonShorthand.Document
import JsonShorthand.Proofs.Derivation
import JsonShorthand.Proofs.Instantiation
import JsonShorthand.Proofs.Source

namespace JsonShorthand

/-- A text in which `value` stands between spaces for every variable `name`. -/
def inline (name : String) (value : List Char) (cs : List Char) : List Char :=
  match cs with
  | [] => []
  | c :: cs =>
    if c = ' ' then ' ' :: inline name value cs
    else
      match _h : Lexeme.scan? c cs with
      | none => c :: cs
      | some lexeme =>
        (if lexeme.symbol = .var name then ' ' :: (value ++ [' ']) else lexeme.source) ++
          inline name value lexeme.rest
termination_by cs.length
decreasing_by
  · simp
  · have := Lexeme.length_rest_le _h
    simp only [List.length_cons]
    omega

def Symbol.instead (name : String) (value symbol : Symbol) : Symbol :=
  if symbol = .var name then value else symbol

section Text

variable (name : String) (value : List Char)

@[simp] theorem inline_nil : inline name value [] = [] := by
  rw [inline]

@[simp] theorem inline_space (cs : List Char) :
    inline name value (' ' :: cs) = ' ' :: inline name value cs := by
  rw [inline]
  simp

theorem inline_of_unclosed {c : Char} {cs : List Char} (hc : c ≠ ' ')
    (h : Lexeme.scan? c cs = none) : inline name value (c :: cs) = c :: cs := by
  rw [inline]
  simp only [hc, if_false]
  split <;> simp_all

theorem inline_of_scan? {c : Char} {cs : List Char} {lexeme : Lexeme} (hc : c ≠ ' ')
    (h : Lexeme.scan? c cs = some lexeme) :
    inline name value (c :: cs) =
      (if lexeme.symbol = .var name then ' ' :: (value ++ [' ']) else lexeme.source) ++
        inline name value lexeme.rest := by
  rw [inline]
  simp only [hc, if_false]
  split <;> simp_all

theorem head?_inline (cs : List Char) :
    (inline name value cs).head? = cs.head? ∨ (inline name value cs).head? = some ' ' := by
  cases cs with
  | nil => simp
  | cons c cs =>
    by_cases hc : c = ' '
    · subst hc
      simp
    · cases hscan : Lexeme.scan? c cs with
      | none => simp [inline_of_unclosed name value hc hscan]
      | some lexeme =>
        rw [inline_of_scan? name value hc hscan]
        by_cases hvar : lexeme.symbol = .var name
        · simp [hvar]
        · obtain ⟨body, hsource, -⟩ := Lexeme.scan?_again hscan (Lexeme.ends_rest hscan)
          simp [hvar, hsource]

theorem Lexeme.ends_inline {c : Char} {cs : List Char} {lexeme : Lexeme}
    (h : Lexeme.scan? c cs = some lexeme) : Lexeme.Ends c (inline name value lexeme.rest) := by
  intro next hnext
  rcases head?_inline name value lexeme.rest with hhead | hhead
  · exact Lexeme.ends_rest h next (hhead ▸ hnext)
  · apply Lexeme.ends_of_isDelimiter _ c next hnext
    intro d hd
    obtain rfl : ' ' = d := by simpa [hhead] using hd
    decide

/-- What is inlined is read as the symbol that it spells, and all the rest as before. -/
theorem symbolsOf_inline {symbol : Symbol} (hvalue : symbolsOf value = some [symbol])
    (cs : List Char) :
    symbolsOf (inline name value cs) =
      (symbolsOf cs).map fun symbols => symbols.map (Symbol.instead name symbol) := by
  induction cs using lexeme_induction with
  | nil => simp
  | space cs ih => simp [ih]
  | unclosed c cs hc hscan =>
    simp [inline_of_unclosed name value hc hscan, symbolsOf_of_unclosed hc hscan]
  | lexeme c cs lexeme hc hscan ih =>
    rw [inline_of_scan? name value hc hscan, symbolsOf_of_scan? hc hscan, Option.map_map]
    by_cases hvar : lexeme.symbol = .var name
    -- the value is read before the space after it as it is read alone
    · have hspells := Spells.of_symbolsOf hvalue (' ' :: inline name value lexeme.rest)
        (Spells.isDelimiter_of_head? rfl _)
      rw [if_pos hvar, List.cons_append, symbolsOf_space, List.append_assoc, List.singleton_append,
        hspells, symbolsOf_space, ih, Option.map_map]
      congr 1
      funext symbols
      simp [Symbol.instead, hvar]
    · have hends := Lexeme.ends_inline name value hscan
      obtain ⟨body, hsource, hagain⟩ := Lexeme.scan?_again hscan hends
      rw [if_neg hvar, hsource, List.cons_append, symbolsOf_of_scan? hc hagain, ih, Option.map_map]
      congr 1
      funext symbols
      simp [Symbol.instead, hvar]

end Text

namespace Grammar

mutual

/-- A derivation with terms in the place of variables. -/
def Term.inline (f : String → Term) : Term → Term
  | .literal text => .literal text
  | .var name => f name
  | .raw text => .raw text
  | .group group => .group (group.inline f)

def Group.inline (f : String → Term) : Group → Group
  | .object members => .object (members.inline f)
  | .array elements => .array (elements.inline f)

def Tail.inline (f : String → Term) : Tail → Tail
  | .assign value => .assign (value.inline f)
  | .path name tail => .path name (tail.inline f)

def Members.inline (f : String → Term) : Members → Members
  | .nil => .nil
  | .cons name tail rest => .cons name (tail.inline f) (rest.inline f)

def Elements.inline (f : String → Term) : Elements → Elements
  | .nil => .nil
  | .term value rest => .term (value.inline f) (rest.inline f)
  | .field name tail rest => .field name (tail.inline f) (rest.inline f)

end

def Text.inline (f : String → Term) : Text → Text
  | .groups first rest => .groups (first.inline f) (rest.map (Group.inline f))
  | .fields members => .fields (members.inline f)

/-- One symbol is spelled in the place of each variable, and no other symbol changes. -/
structure SpellsVars (f : String → Term) (g : Symbol → Symbol) : Prop where
  var (name : String) : (f name).symbols = [g (.var name)]
  other (symbol : Symbol) (h : ∀ name, symbol ≠ .var name) : g symbol = symbol

section Symbols

variable {f : String → Term} {g : Symbol → Symbol}

mutual

theorem Term.symbols_inline (h : SpellsVars f g) :
    ∀ term : Term, (term.inline f).symbols = term.symbols.map g
  | .literal text => by simp [Term.inline, Term.symbols, h.other]
  | .var name => h.var name
  | .raw text => by simp [Term.inline, Term.symbols, h.other]
  | .group group => group.symbols_inline h

theorem Group.symbols_inline (h : SpellsVars f g) :
    ∀ group : Group, (group.inline f).symbols = group.symbols.map g
  | .object members => by
    have hmembers := members.symbols_inline h
    simp [Group.inline, Group.symbols, hmembers, h.other]
  | .array elements => by
    have helements := elements.symbols_inline h
    simp [Group.inline, Group.symbols, helements, h.other]

theorem Tail.symbols_inline (h : SpellsVars f g) :
    ∀ tail : Tail, (tail.inline f).symbols = tail.symbols.map g
  | .assign value => by
    have hvalue := value.symbols_inline h
    simp [Tail.inline, Tail.symbols, hvalue, h.other]
  | .path name tail => by
    have htail := tail.symbols_inline h
    simp [Tail.inline, Tail.symbols, htail, h.other]

theorem Members.symbols_inline (h : SpellsVars f g) :
    ∀ members : Members, (members.inline f).symbols = members.symbols.map g
  | .nil => rfl
  | .cons name tail rest => by
    have htail := tail.symbols_inline h
    have hrest := rest.symbols_inline h
    simp [Members.inline, Members.symbols, htail, hrest, h.other]

theorem Elements.symbols_inline (h : SpellsVars f g) :
    ∀ elements : Elements, (elements.inline f).symbols = elements.symbols.map g
  | .nil => rfl
  | .term value rest => by
    have hvalue := value.symbols_inline h
    have hrest := rest.symbols_inline h
    simp [Elements.inline, Elements.symbols, hvalue, hrest]
  | .field name tail rest => by
    have htail := tail.symbols_inline h
    have hrest := rest.symbols_inline h
    simp [Elements.inline, Elements.symbols, htail, hrest, h.other]

end

theorem Text.symbols_inline (h : SpellsVars f g) (text : Text) :
    (text.inline f).symbols = text.symbols.map g := by
  have hgroup := Group.symbols_inline h
  cases text with
  | groups first rest => simp [inline, symbols, hgroup, List.map_flatMap, List.flatMap_map]
  | fields members => exact members.symbols_inline h

end Symbols

section Levels

variable {f : String → Term}

mutual

theorem Term.levels_inline (h : ∀ name, (f name).levels = 0) :
    ∀ term : Term, (term.inline f).levels = term.levels
  | .literal _ => rfl
  | .var name => h name
  | .raw _ => rfl
  | .group group => group.levels_inline h

theorem Group.levels_inline (h : ∀ name, (f name).levels = 0) :
    ∀ group : Group, (group.inline f).levels = group.levels
  | .object members => congrArg (· + 1) (members.levels_inline h)
  | .array elements => congrArg (· + 1) (elements.levels_inline h)

theorem Tail.levels_inline (h : ∀ name, (f name).levels = 0) :
    ∀ tail : Tail, (tail.inline f).levels = tail.levels
  | .assign value => congrArg (· + 1) (value.levels_inline h)
  | .path _ tail => congrArg (· + 1) (tail.levels_inline h)

theorem Members.levels_inline (h : ∀ name, (f name).levels = 0) :
    ∀ members : Members, (members.inline f).levels = members.levels
  | .nil => rfl
  | .cons _ tail rest => by
    simp only [Members.inline, Members.levels, tail.levels_inline h, rest.levels_inline h]

theorem Elements.levels_inline (h : ∀ name, (f name).levels = 0) :
    ∀ elements : Elements, (elements.inline f).levels = elements.levels
  | .nil => rfl
  | .term value rest => by
    simp only [Elements.inline, Elements.levels, value.levels_inline h, rest.levels_inline h]
  | .field _ tail rest => by
    simp only [Elements.inline, Elements.levels, tail.levels_inline h, rest.levels_inline h]

end

theorem Text.levels_inline (h : ∀ name, (f name).levels = 0) (text : Text) :
    (text.inline f).levels = text.levels := by
  have hgroup := Group.levels_inline h
  cases text with
  | groups first rest => simp [inline, levels, levelsOfGroups, hgroup, Function.comp_def]
  | fields members => exact members.levels_inline h

end Levels

/-- The value `v` stands in the place of the variable `name`, and no other variable changes. -/
def DenotesVars (f : String → Term) (name : String) (v : Value) : Prop :=
  ∀ other, (f other).denote = (Generator.var other).instantiate name v

section Denotations

variable {f : String → Term} {name : String} {v : Value}

mutual

theorem Term.denote_inline (h : DenotesVars f name v) :
    ∀ term : Term, (term.inline f).denote = term.denote.instantiate name v
  | .literal _ => rfl
  | .var other => h other
  | .raw _ => rfl
  | .group group => group.denote_inline h

theorem Group.denote_inline (h : DenotesVars f name v) :
    ∀ group : Group, (group.inline f).denote = group.denote.instantiate name v
  -- fields that a later one has cut or merged are cut or merged in the same way
  | .object members => by
    have hentries := Generator.instantiateFields_addList name v .nil members.entries
    rw [← members.entries_inline h] at hentries
    exact congrArg Generator.object hentries.symm
  | .array elements => congrArg Generator.array (elements.denote_inline h)

theorem Tail.denote_inline (h : DenotesVars f name v) :
    ∀ tail : Tail, (tail.inline f).denote = tail.denote.instantiate name v
  | .assign value => value.denote_inline h
  | .path other tail => congrArg (Generator.single other) (tail.denote_inline h)

theorem Members.entries_inline (h : DenotesVars f name v) :
    ∀ members : Members, (members.inline f).entries =
      members.entries.map fun entry => (entry.1, entry.2.instantiate name v)
  | .nil => rfl
  | .cons other tail rest => by
    simp only [Members.inline, Members.entries, List.map_cons, tail.denote_inline h,
      rest.entries_inline h]

theorem Elements.denote_inline (h : DenotesVars f name v) :
    ∀ elements : Elements,
      (elements.inline f).denote = Generator.instantiateElements name v elements.denote
  | .nil => rfl
  | .term value rest => by
    simp only [Elements.inline, Elements.denote, Generator.instantiateElements,
      value.denote_inline h, rest.denote_inline h]
  | .field other tail rest => by
    simp only [Elements.inline, Elements.denote, Generator.instantiateElements,
      Generator.instantiate_single, tail.denote_inline h, rest.denote_inline h]

end

theorem Text.denote_inline (h : DenotesVars f name v) (text : Text) :
    (text.inline f).denote = text.denote.map (Generator.instantiate name v) := by
  have hgroup := Group.denote_inline h
  cases text with
  | groups first rest => simp [inline, denote, hgroup]
  | fields members => exact congrArg (fun g => [g]) (hgroup (.object members))

end Denotations

end Grammar

end JsonShorthand
