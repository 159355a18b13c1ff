import JsonShorthand.Proofs.Grammar
import JsonShorthand.Proofs.Symbols

namespace JsonShorthand.Grammar

section

variable (limit : Nat)

/-- One group inside `depth` levels, of which `limit - depth` are free; `close` tells what may
follow it. -/
def GroupCloses (depth : Nat) (close : Generator → List Symbol → Prop) (symbols : List Symbol) :
    Prop :=
  ∃ (group : Group) (rest : List Symbol), symbols = group.symbols ++ rest ∧
    group.levels ≤ limit - depth ∧ close group.denote rest

def MembersClose (depth : Nat) (present : Fields Generator none)
    (close : Generator → List Symbol → Prop) (symbols : List Symbol) : Prop :=
  ∃ (members : Members) (rest : List Symbol), symbols = members.symbols ++ .closeBrace :: rest ∧
    members.levels ≤ limit - (depth + 1) ∧ close (.object (present.addList members.entries)) rest

def ElementsClose (depth : Nat) (earlier : List Generator)
    (close : Generator → List Symbol → Prop) (symbols : List Symbol) : Prop :=
  ∃ (elements : Elements) (rest : List Symbol),
    symbols = elements.symbols ++ .closeBracket :: rest ∧
      elements.levels ≤ limit - (depth + 1) ∧
      close (.array (earlier.reverse ++ elements.denote)) rest

variable (forest : Forest)

def GroupsClose (earlier : List Generator) (symbols : List Symbol) : Prop :=
  ∃ groups : List Group, symbols = groups.flatMap Group.symbols ∧
    levelsOfGroups groups ≤ limit ∧ earlier.reverse ++ groups.map Group.denote = forest

def FieldsClose (present : Fields Generator none) (symbols : List Symbol) : Prop :=
  ∃ members : Members, symbols = members.symbols ∧ members.levels ≤ limit ∧
    [.object (present.addList members.entries)] = forest

/-- The symbols that lead to the forest once a generator has filled the hole. -/
def Closes : Hole → Generator → List Symbol → Prop
  | .group earlier, generator => GroupsClose limit forest (generator :: earlier)
  | .field present name, generator => FieldsClose limit forest (present.add name generator)
  | .member present name outer, generator =>
    MembersClose limit outer.depth (present.add name generator) (Closes outer)
  | .segment name outer, generator => Closes outer (.single name generator)
  | .element earlier outer, generator =>
    ElementsClose limit outer.depth (generator :: earlier) (Closes outer)

def TermCloses (hole : Hole) (symbols : List Symbol) : Prop :=
  ∃ (term : Term) (rest : List Symbol), symbols = term.symbols ++ rest ∧
    term.levels ≤ limit - hole.depth ∧ Closes limit forest hole term.denote rest

/-- The depth of a hole counts its tail, so that one more level is free. -/
def TailCloses (hole : Hole) (symbols : List Symbol) : Prop :=
  ∃ (tail : Tail) (rest : List Symbol), symbols = tail.symbols ++ rest ∧
    tail.levels ≤ limit - hole.depth + 1 ∧ Closes limit forest hole tail.denote rest

/-- The symbols that lead from a state to the forest. -/
def Completes : Forest.State → List Symbol → Prop
  | .start, symbols =>
    ∃ text : Text, symbols = text.symbols ∧ text.levels ≤ limit ∧ text.denote = forest
  | .groups earlier, symbols => GroupsClose limit forest earlier symbols
  | .fields present, symbols => FieldsClose limit forest present symbols
  | .members present outer, symbols =>
    MembersClose limit outer.depth present (Closes limit forest outer) symbols
  | .elements earlier outer, symbols =>
    ElementsClose limit outer.depth earlier (Closes limit forest outer) symbols
  | .tail hole, symbols => TailCloses limit forest hole symbols
  | .path hole, symbols =>
    ∃ name rest, symbols = .literal name :: rest ∧ hole.depth < limit ∧
      TailCloses limit forest (.segment name hole) rest
  | .value hole, symbols => TermCloses limit forest hole symbols

end

variable {limit : Nat} {forest : Forest}

theorem completes_fill (generator : Generator) (hole : Hole) (symbols : List Symbol) :
    Completes limit forest (.fill generator hole) symbols ↔
      Closes limit forest hole generator symbols := by
  induction hole generalizing generator with
  | segment name outer ih => exact ih (.single name generator)
  | _ => exact Iff.rfl

section

variable (symbol : Symbol) (rest : List Symbol)

theorem groupCloses_cons_iff (depth : Nat) (close : Generator → List Symbol → Prop) :
    GroupCloses limit depth close (symbol :: rest) ↔
      depth < limit ∧
        ((symbol = .openBrace ∧ MembersClose limit depth .nil close rest) ∨
          (symbol = .openBracket ∧ ElementsClose limit depth [] close rest)) := by
  apply Iff.intro
  · intro h
    obtain ⟨group, more, hsymbols, hlevels, hclose⟩ := h
    -- the brace or bracket itself takes one of the free levels
    cases group with
    | object members =>
      simp only [Group.levels] at hlevels
      simp only [Group.symbols, List.cons_append, List.append_assoc, List.cons.injEq,
        List.nil_append] at hsymbols
      exact ⟨by omega, .inl ⟨hsymbols.1, members, more, hsymbols.2, by omega, hclose⟩⟩
    | array elements =>
      simp only [Group.levels] at hlevels
      simp only [Group.symbols, List.cons_append, List.append_assoc, List.cons.injEq,
        List.nil_append] at hsymbols
      exact ⟨by omega, .inr ⟨hsymbols.1, elements, more, hsymbols.2, by omega, hclose⟩⟩
  · rintro ⟨hdepth, ⟨rfl, members, more, rfl, hlevels, hclose⟩ |
      ⟨rfl, elements, more, rfl, hlevels, hclose⟩⟩
    · have hgroup : (Group.object members).levels ≤ limit - depth := by
        simp only [Group.levels]; omega
      exact ⟨.object members, more, by simp [Group.symbols], hgroup, hclose⟩
    · have hgroup : (Group.array elements).levels ≤ limit - depth := by
        simp only [Group.levels]; omega
      exact ⟨.array elements, more, by simp [Group.symbols], hgroup, hclose⟩

theorem groupsClose_cons_iff (earlier : List Generator) :
    GroupsClose limit forest earlier (symbol :: rest) ↔
      GroupCloses limit 0 (Closes limit forest (.group earlier)) (symbol :: rest) := by
  have hlevels : ∀ group groups,
      levelsOfGroups (group :: groups) = max group.levels (levelsOfGroups groups) :=
    fun _ _ => rfl
  apply Iff.intro
  · intro h
    obtain ⟨groups, hsymbols, hgroups, hforest⟩ := h
    cases groups with
    | nil => simp at hsymbols
    | cons group groups =>
      rw [hlevels] at hgroups
      exact ⟨group, _, hsymbols, by omega, groups, rfl, by omega, by simpa using hforest⟩
  · rintro ⟨group, _, hsymbols, hgroup, groups, rfl, hgroups, hforest⟩
    refine ⟨group :: groups, hsymbols, ?_, by simpa using hforest⟩
    rw [hlevels]
    omega

theorem fieldsClose_cons_iff (present : Fields Generator none) :
    FieldsClose limit forest present (symbol :: rest) ↔
      ∃ name, symbol = .literal name ∧ 0 < limit ∧
        TailCloses limit forest (.field present name) rest := by
  apply Iff.intro
  · intro h
    obtain ⟨members, hsymbols, hlevels, hforest⟩ := h
    cases members with
    | nil => simp [Members.symbols] at hsymbols
    -- a tail has a level of its own, so one must be free
    | cons name tail members =>
      have hpos := tail.levels_pos
      simp only [Members.symbols, List.cons.injEq] at hsymbols
      simp only [Members.levels] at hlevels
      refine ⟨name, hsymbols.1, by omega, tail, _, hsymbols.2, ?_, members, rfl, by omega, hforest⟩
      simp only [Hole.depth]
      omega
  · rintro ⟨name, rfl, hlimit, tail, _, rfl, htail, members, rfl, hmembers, hforest⟩
    refine ⟨.cons name tail members, rfl, ?_, hforest⟩
    simp only [Hole.depth] at htail
    simp only [Members.levels]
    omega

theorem membersClose_cons_iff (present : Fields Generator none) (outer : Hole) :
    MembersClose limit outer.depth present (Closes limit forest outer) (symbol :: rest) ↔
      (∃ name, symbol = .literal name ∧ outer.depth + 1 < limit ∧
        TailCloses limit forest (.member present name outer) rest) ∨
      (symbol = .closeBrace ∧ Closes limit forest outer (.object present) rest) := by
  apply Iff.intro
  · intro h
    obtain ⟨members, more, hsymbols, hlevels, hclose⟩ := h
    cases members with
    | nil =>
      simp only [Members.symbols, List.nil_append, List.cons.injEq] at hsymbols
      obtain ⟨rfl, rfl⟩ := hsymbols
      exact .inr ⟨rfl, hclose⟩
    | cons name tail members =>
      -- the tail opens a level inside that of the object
      have hpos := tail.levels_pos
      simp only [Members.symbols, List.cons_append, List.append_assoc, List.cons.injEq] at hsymbols
      simp only [Members.levels] at hlevels
      refine .inl ⟨name, hsymbols.1, by omega, tail, _, hsymbols.2, ?_, members, more, rfl,
        by omega, hclose⟩
      simp only [Hole.depth]
      omega
  · rintro (⟨name, rfl, hdepth, tail, _, rfl, htail, members, more, rfl, hmembers, hclose⟩ |
      ⟨rfl, hclose⟩)
    · refine ⟨.cons name tail members, more, by simp [Members.symbols], ?_, hclose⟩
      simp only [Hole.depth] at htail
      simp only [Members.levels]
      omega
    · exact ⟨.nil, rest, rfl, Nat.zero_le _, hclose⟩

theorem termCloses_cons_iff (hole : Hole) :
    TermCloses limit forest hole (symbol :: rest) ↔
      (∃ text, symbol = .literal text ∧ Closes limit forest hole (.value (.string text)) rest) ∨
      (∃ name, symbol = .var name ∧ Closes limit forest hole (.var name) rest) ∨
      (∃ text, symbol = .raw text ∧
        Closes limit forest hole (.value ((Value.ofRaw? text).getD .null)) rest) ∨
      GroupCloses limit hole.depth (Closes limit forest hole) (symbol :: rest) := by
  apply Iff.intro
  · intro h
    obtain ⟨term, more, hsymbols, hlevels, hclose⟩ := h
    cases term with
    | group group => exact .inr (.inr (.inr ⟨group, more, hsymbols, hlevels, hclose⟩))
    | literal text | var name | raw text =>
      simp only [Term.symbols, List.cons_append, List.nil_append, List.cons.injEq] at hsymbols
      obtain ⟨rfl, rfl⟩ := hsymbols
      simp_all [Term.denote]
  · rintro (⟨text, rfl, hclose⟩ | ⟨name, rfl, hclose⟩ | ⟨text, rfl, hclose⟩ |
      ⟨group, more, hsymbols, hlevels, hclose⟩)
    · exact ⟨.literal text, rest, rfl, Nat.zero_le _, hclose⟩
    · exact ⟨.var name, rest, rfl, Nat.zero_le _, hclose⟩
    · exact ⟨.raw text, rest, rfl, Nat.zero_le _, hclose⟩
    · exact ⟨.group group, more, hsymbols, hlevels, hclose⟩

theorem tailCloses_cons_iff (hole : Hole) :
    TailCloses limit forest hole (symbol :: rest) ↔
      (symbol = .assign ∧ TermCloses limit forest hole rest) ∨
      (symbol = .dot ∧ Completes limit forest (.path hole) rest) := by
  apply Iff.intro
  · intro h
    obtain ⟨tail, more, hsymbols, hlevels, hclose⟩ := h
    cases tail with
    | assign value =>
      simp only [Tail.symbols, List.cons_append, List.cons.injEq] at hsymbols
      simp only [Tail.levels] at hlevels
      exact .inl ⟨hsymbols.1, value, more, hsymbols.2, by omega, hclose⟩
    | path name tail =>
      have hpos := tail.levels_pos
      simp only [Tail.symbols, List.cons_append, List.cons.injEq] at hsymbols
      simp only [Tail.levels] at hlevels
      refine .inr ⟨hsymbols.1, name, _, hsymbols.2, by omega, tail, more, rfl, ?_, hclose⟩
      simp only [Hole.depth]
      omega
  · rintro (⟨rfl, value, more, rfl, hlevels, hclose⟩ |
      ⟨rfl, name, _, rfl, hdepth, tail, more, rfl, htail, hclose⟩)
    · have htail : (Tail.assign value).levels ≤ limit - hole.depth + 1 := by
        simp only [Tail.levels]; omega
      exact ⟨.assign value, more, rfl, htail, hclose⟩
    · refine ⟨.path name tail, more, rfl, ?_, hclose⟩
      simp only [Hole.depth] at htail
      simp only [Tail.levels]
      omega

theorem elementsClose_cons_iff (earlier : List Generator) (outer : Hole) :
    ElementsClose limit outer.depth earlier (Closes limit forest outer) (symbol :: rest) ↔
      (∃ name, symbol = .literal name ∧ outer.depth + 1 < limit ∧
        TailCloses limit forest (.segment name (.element earlier outer)) rest) ∨
      TermCloses limit forest (.element earlier outer) (symbol :: rest) ∨
      (symbol = .closeBracket ∧
        Closes limit forest outer (.array earlier.reverse) rest) := by
  apply Iff.intro
  · intro h
    obtain ⟨elements, more, hsymbols, hlevels, hclose⟩ := h
    cases elements with
    | nil =>
      simp only [Elements.symbols, List.nil_append, List.cons.injEq] at hsymbols
      obtain ⟨rfl, rfl⟩ := hsymbols
      simp only [Elements.denote, List.append_nil] at hclose
      exact .inr (.inr ⟨rfl, hclose⟩)
    | term value elements =>
      simp only [Elements.symbols, List.append_assoc] at hsymbols
      simp only [Elements.levels] at hlevels
      refine .inr (.inl ⟨value, _, hsymbols, ?_, elements, more, rfl, by omega, ?_⟩)
      · simp only [Hole.depth]; omega
      · simpa [Elements.denote] using hclose
    | field name tail elements =>
      have hpos := tail.levels_pos
      simp only [Elements.symbols, List.cons_append, List.append_assoc, List.cons.injEq] at hsymbols
      simp only [Elements.levels] at hlevels
      refine .inl ⟨name, hsymbols.1, by omega, tail, _, hsymbols.2, ?_, elements, more, rfl,
        by omega, ?_⟩
      · simp only [Hole.depth]; omega
      · simpa [Elements.denote] using hclose
  · rintro (⟨name, rfl, hdepth, tail, _, rfl, htail, elements, more, rfl, helements, hclose⟩ |
      ⟨value, _, hsymbols, hvalue, elements, more, rfl, helements, hclose⟩ | ⟨rfl, hclose⟩)
    · refine ⟨.field name tail elements, more, by simp [Elements.symbols], ?_, ?_⟩
      · simp only [Hole.depth] at htail
        simp only [Elements.levels]
        omega
      · simpa [Elements.denote] using hclose
    · refine ⟨.term value elements, more, by simpa [Elements.symbols] using hsymbols, ?_, ?_⟩
      · simp only [Hole.depth] at hvalue
        simp only [Elements.levels]
        omega
      · simpa [Elements.denote] using hclose
    · exact ⟨.nil, rest, rfl, Nat.zero_le _, by simpa [Elements.denote] using hclose⟩

theorem completes_start_cons_iff :
    Completes limit forest .start (symbol :: rest) ↔
      GroupsClose limit forest [] (symbol :: rest) ∨
      FieldsClose limit forest .nil (symbol :: rest) := by
  apply Iff.intro
  · intro h
    obtain ⟨text, hsymbols, hlevels, hforest⟩ := h
    cases text with
    | groups first others => exact .inl ⟨first :: others, hsymbols, hlevels, hforest⟩
    | fields members => exact .inr ⟨members, hsymbols, hlevels, hforest⟩
  · rintro (⟨groups, hsymbols, hlevels, hforest⟩ | ⟨members, hsymbols, hlevels, hforest⟩)
    · cases groups with
      | nil => simp at hsymbols
      | cons first others => exact ⟨.groups first others, hsymbols, hlevels, hforest⟩
    · exact ⟨.fields members, hsymbols, hlevels, hforest⟩

end

open Forest.State

theorem step_following_eq (state : Forest.State) (symbol : Symbol)
    (following other : Option Symbol) :
    state.step symbol following = state.step symbol other ∨
      ∃ text earlier outer, symbol = .literal text ∧ state = .elements earlier outer := by
  cases state with
  | elements earlier outer =>
    cases symbol with
    | literal text => exact .inr ⟨text, earlier, outer, rfl, rfl⟩
    | _ => exact .inl rfl
  | _ => cases symbol <;> exact .inl rfl

/-- A step goes on to a state, or only the limit of the reader, which is lower than the one at hand,
keeps it from that. -/
def Permits (limit : Nat) (result : Except Cause Forest.State) (next : Forest.State) : Prop :=
  result = .ok next ∨ nestingLimit < limit ∧ result = .error .nestingTooDeep

theorem permits_descend {depth : Nat} (next : Forest.State) (h : depth < limit) :
    Permits limit (descend depth next) next := by
  unfold descend
  by_cases hdepth : depth < nestingLimit
  · exact .inl (if_pos hdepth)
  · exact .inr ⟨by omega, if_neg hdepth⟩

theorem descend_eq_ok_iff {depth : Nat} {state next : Forest.State} :
    descend depth state = .ok next ↔ depth < nestingLimit ∧ state = next := by
  by_cases h : depth < nestingLimit <;> simp [descend, h]

theorem openObject_eq_ok_iff {hole : Hole} {next : Forest.State} :
    openObject hole = .ok next ↔ hole.depth < nestingLimit ∧ members .nil hole = next :=
  descend_eq_ok_iff

theorem openArray_eq_ok_iff {hole : Hole} {next : Forest.State} :
    openArray hole = .ok next ↔ hole.depth < nestingLimit ∧ elements [] hole = next :=
  descend_eq_ok_iff

theorem openTail_eq_ok_iff {hole : Hole} {next : Forest.State} :
    openTail hole = .ok next ↔ hole.depth - 1 < nestingLimit ∧ tail hole = next :=
  descend_eq_ok_iff

variable {symbol : Symbol} {rest : List Symbol}

theorem ElementsClose.head?_ne {depth : Nat} {earlier : List Generator}
    {close : Generator → List Symbol → Prop} (h : ElementsClose limit depth earlier close rest) :
    rest.head? ≠ some .assign ∧ rest.head? ≠ some .dot := by
  obtain ⟨elements, more, rfl, -, -⟩ := h
  exact elements.head?_symbols_append_ne more

theorem TailCloses.head? {hole : Hole} (h : TailCloses limit forest hole rest) :
    rest.head? = some .assign ∨ rest.head? = some .dot := by
  obtain ⟨tail, more, rfl, -, -⟩ := h
  exact tail.head?_symbols_append more

theorem termCloses_of_stepValue (hlimit : nestingLimit ≤ limit) {hole : Hole}
    {next : Forest.State} (hstep : stepValue hole symbol = .ok next)
    (h : Completes limit forest next rest) : TermCloses limit forest hole (symbol :: rest) := by
  rw [termCloses_cons_iff]
  cases symbol with
  | literal text =>
    obtain rfl := Except.ok.inj hstep
    exact .inl ⟨text, rfl, (completes_fill _ _ _).1 h⟩
  | var name =>
    obtain rfl := Except.ok.inj hstep
    exact .inr (.inl ⟨name, rfl, (completes_fill _ _ _).1 h⟩)
  | raw text =>
    cases hraw : Value.ofRaw? text with
    | none => simp [stepValue, Symbol.scalar, hraw, Except.map] at hstep
    | some v =>
      simp only [stepValue, Symbol.scalar, hraw, Except.map, Except.ok.injEq] at hstep
      subst hstep
      exact .inr (.inr (.inl ⟨text, rfl, by simpa [hraw] using (completes_fill _ _ _).1 h⟩))
  | openBrace =>
    obtain ⟨hdepth, rfl⟩ := descend_eq_ok_iff.1 hstep
    exact .inr (.inr (.inr ((groupCloses_cons_iff ..).2 ⟨by omega, .inl ⟨rfl, h⟩⟩)))
  | openBracket =>
    obtain ⟨hdepth, rfl⟩ := descend_eq_ok_iff.1 hstep
    exact .inr (.inr (.inr ((groupCloses_cons_iff ..).2 ⟨by omega, .inr ⟨rfl, h⟩⟩)))
  | closeBrace | closeBracket | dot | assign => simp [stepValue, Symbol.scalar, Except.map] at hstep

theorem stepValue_of_termCloses {hole : Hole}
    (hraw : ∀ text, symbol = .raw text → (Value.ofRaw? text).isSome)
    (h : TermCloses limit forest hole (symbol :: rest)) :
    ∃ next, Permits limit (stepValue hole symbol) next ∧ Completes limit forest next rest := by
  rw [termCloses_cons_iff, groupCloses_cons_iff] at h
  rcases h with ⟨text, rfl, h⟩ | ⟨name, rfl, h⟩ | ⟨text, rfl, h⟩ |
    ⟨hdepth, ⟨rfl, h⟩ | ⟨rfl, h⟩⟩
  · exact ⟨_, .inl rfl, (completes_fill _ _ _).2 h⟩
  · exact ⟨_, .inl rfl, (completes_fill _ _ _).2 h⟩
  · obtain ⟨v, hv⟩ := Option.isSome_iff_exists.1 (hraw text rfl)
    refine ⟨fill (.value v) hole, .inl ?_, (completes_fill _ _ _).2 (by simpa [hv] using h)⟩
    simp [stepValue, Symbol.scalar, hv, Except.map]
  · exact ⟨_, permits_descend (members .nil hole) hdepth, h⟩
  · exact ⟨_, permits_descend (elements [] hole) hdepth, h⟩

/-- Going back over a step, whatever symbol was seen after it and whatever limit is not lower than
that of the reader. -/
theorem completes_of_step (hlimit : nestingLimit ≤ limit) {state next : Forest.State}
    {following : Option Symbol} (hstep : state.step symbol following = .ok next)
    (h : Completes limit forest next rest) : Completes limit forest state (symbol :: rest) := by
  -- state by state, the symbols that `step` takes are those that a completion begins with
  cases state with
  | start =>
    rw [completes_start_cons_iff, groupsClose_cons_iff, groupCloses_cons_iff, fieldsClose_cons_iff]
    cases symbol <;> simp only [step, openObject_eq_ok_iff, openArray_eq_ok_iff,
      openTail_eq_ok_iff, reduceCtorEq] at hstep
    all_goals obtain ⟨hdepth, rfl⟩ := hstep
    case openBrace => exact .inl ⟨by omega, .inl ⟨rfl, h⟩⟩
    case openBracket => exact .inl ⟨by omega, .inr ⟨rfl, h⟩⟩
    case literal name => exact .inr ⟨name, rfl, by omega, h⟩
  | groups earlier =>
    refine (groupsClose_cons_iff ..).2 ((groupCloses_cons_iff ..).2 ?_)
    cases symbol <;> simp only [step, openObject_eq_ok_iff, openArray_eq_ok_iff,
      reduceCtorEq] at hstep
    all_goals obtain ⟨hdepth, rfl⟩ := hstep
    case openBrace => exact ⟨by omega, .inl ⟨rfl, h⟩⟩
    case openBracket => exact ⟨by omega, .inr ⟨rfl, h⟩⟩
  | fields present =>
    cases symbol <;> simp only [step, openTail_eq_ok_iff, reduceCtorEq] at hstep
    obtain ⟨hdepth, rfl⟩ := hstep
    exact (fieldsClose_cons_iff ..).2 ⟨_, rfl, by omega, h⟩
  | members present outer =>
    refine (membersClose_cons_iff ..).2 ?_
    cases symbol <;> simp only [step, openTail_eq_ok_iff, Hole.depth, Except.ok.injEq,
      reduceCtorEq] at hstep
    case literal name =>
      obtain ⟨hdepth, rfl⟩ := hstep
      exact .inl ⟨name, rfl, by omega, h⟩
    case closeBrace =>
      subst hstep
      exact .inr ⟨rfl, (completes_fill _ _ _).1 h⟩
  | elements earlier outer =>
    refine (elementsClose_cons_iff ..).2 ?_
    cases symbol with
    -- the symbol after a literal tells a field from an element
    | literal name =>
      by_cases hname : following = some .assign ∨ following = some .dot
      · simp only [step, if_pos hname, openTail_eq_ok_iff, Hole.depth] at hstep
        obtain ⟨hdepth, rfl⟩ := hstep
        exact .inl ⟨name, rfl, by omega, h⟩
      · simp only [step, if_neg hname, Except.ok.injEq] at hstep
        subst hstep
        exact .inr (.inl ((termCloses_cons_iff ..).2 (.inl ⟨name, rfl, h⟩)))
    | closeBracket =>
      simp only [step, Except.ok.injEq] at hstep
      subst hstep
      exact .inr (.inr ⟨rfl, (completes_fill _ _ _).1 h⟩)
    | _ => exact .inr (.inl (termCloses_of_stepValue hlimit hstep h))
  | tail hole =>
    refine (tailCloses_cons_iff ..).2 ?_
    cases symbol <;> simp only [step, Except.ok.injEq, reduceCtorEq] at hstep
    all_goals subst hstep
    case assign => exact .inl ⟨rfl, h⟩
    case dot => exact .inr ⟨rfl, h⟩
  | path hole =>
    cases symbol <;> simp only [step, openTail_eq_ok_iff, Hole.depth, reduceCtorEq] at hstep
    obtain ⟨hdepth, rfl⟩ := hstep
    exact ⟨_, rest, rfl, by omega, h⟩
  | value hole => exact termCloses_of_stepValue hlimit hstep h

theorem stepElement_of_termCloses {earlier : List Generator} {outer : Hole}
    (hraw : ∀ text, symbol = .raw text → (Value.ofRaw? text).isSome)
    (h : TermCloses limit forest (.element earlier outer) (symbol :: rest)) :
    ∃ next, Permits limit ((elements earlier outer).step symbol rest.head?) next ∧
      Completes limit forest next rest := by
  have hvalue := stepValue_of_termCloses hraw h
  rw [termCloses_cons_iff] at h
  cases symbol with
  -- what completes the array after an element cannot turn a literal into a name
  | literal text =>
    have hclose : Closes limit forest (.element earlier outer) (.value (.string text)) rest := by
      simpa [groupCloses_cons_iff] using h
    have hhead : ¬ (rest.head? = some .assign ∨ rest.head? = some .dot) := by
      simpa using ElementsClose.head?_ne hclose
    refine ⟨fill (.value (.string text)) (.element earlier outer), .inl ?_,
      (completes_fill _ _ _).2 hclose⟩
    simp only [step, if_neg hhead]
  | closeBracket => simp [groupCloses_cons_iff] at h
  | _ => exact hvalue

/-- A completion is never refused its first symbol, unless the limit of the reader is lower. -/
theorem step_of_completes {state : Forest.State}
    (hraw : ∀ text, symbol = .raw text → (Value.ofRaw? text).isSome)
    (h : Completes limit forest state (symbol :: rest)) :
    ∃ next, Permits limit (state.step symbol rest.head?) next ∧
      Completes limit forest next rest := by
  -- the other way round, each symbol that a completion begins with has a step of its own
  cases state with
  | start =>
    rw [completes_start_cons_iff, groupsClose_cons_iff, groupCloses_cons_iff,
      fieldsClose_cons_iff] at h
    rcases h with ⟨hdepth, ⟨rfl, hnext⟩ | ⟨rfl, hnext⟩⟩ | ⟨name, rfl, hdepth, hnext⟩
    · exact ⟨_, permits_descend (members .nil (.group [])) hdepth, hnext⟩
    · exact ⟨_, permits_descend (elements [] (.group [])) hdepth, hnext⟩
    · exact ⟨_, permits_descend (tail (.field .nil name)) hdepth, hnext⟩
  | groups earlier =>
    rcases (groupCloses_cons_iff ..).1 ((groupsClose_cons_iff ..).1 h) with
      ⟨hdepth, ⟨rfl, hnext⟩ | ⟨rfl, hnext⟩⟩
    · exact ⟨_, permits_descend (members .nil (.group earlier)) hdepth, hnext⟩
    · exact ⟨_, permits_descend (elements [] (.group earlier)) hdepth, hnext⟩
  | fields present =>
    obtain ⟨name, rfl, hdepth, hnext⟩ := (fieldsClose_cons_iff ..).1 h
    exact ⟨_, permits_descend (tail (.field present name)) hdepth, hnext⟩
  | members present outer =>
    rcases (membersClose_cons_iff ..).1 h with ⟨name, rfl, hdepth, hnext⟩ | ⟨rfl, hclose⟩
    · exact ⟨_, permits_descend (tail (.member present name outer)) hdepth, hnext⟩
    · exact ⟨_, .inl rfl, (completes_fill _ _ _).2 hclose⟩
  | elements earlier outer =>
    rcases (elementsClose_cons_iff ..).1 h with ⟨name, rfl, hdepth, hnext⟩ | hterm | ⟨rfl, hclose⟩
    · refine ⟨tail (.segment name (.element earlier outer)), ?_, hnext⟩
      simp only [step, if_pos hnext.head?]
      exact permits_descend _ hdepth
    · exact stepElement_of_termCloses hraw hterm
    · exact ⟨_, .inl rfl, (completes_fill _ _ _).2 hclose⟩
  | tail hole =>
    rcases (tailCloses_cons_iff ..).1 h with ⟨rfl, hnext⟩ | ⟨rfl, hnext⟩
    · exact ⟨value hole, .inl rfl, hnext⟩
    · exact ⟨path hole, .inl rfl, hnext⟩
  | path hole =>
    obtain ⟨name, _, hsymbols, hdepth, hnext⟩ := h
    obtain ⟨rfl, rfl⟩ := List.cons.inj hsymbols
    exact ⟨_, permits_descend (tail (.segment name hole)) hdepth, hnext⟩
  | value hole => exact stepValue_of_termCloses hraw h

end JsonShorthand.Grammar
