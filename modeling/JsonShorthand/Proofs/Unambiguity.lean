import JsonShorthand.Proofs.Derivation

namespace JsonShorthand.Grammar

theorem Elements.term_symbols_ne {value : Term} {name : String} {tail : Tail}
    {elements others : Elements} {rest more : List Symbol} :
    (Elements.term value elements).symbols ++ .closeBracket :: rest ≠
      (Elements.field name tail others).symbols ++ .closeBracket :: more := by
  intro h
  cases value with
  | literal text =>
    have hrest : elements.symbols ++ .closeBracket :: rest =
        tail.symbols ++ (others.symbols ++ .closeBracket :: more) := by
      simpa [Elements.symbols, Term.symbols] using (List.cons.inj h).2
    obtain ⟨hassign, hdot⟩ := elements.head?_symbols_append_ne rest
    rw [hrest] at hassign hdot
    exact (tail.head?_symbols_append _).elim hassign hdot
  | group group => cases group <;> simp [Elements.symbols, Term.symbols, Group.symbols] at h
  | _ => simp [Elements.symbols, Term.symbols] at h

mutual

/-- A term is known from its symbols, whatever follows them. -/
theorem Term.eq_of_symbols : ∀ (first second : Term) {rest more : List Symbol},
    first.symbols ++ rest = second.symbols ++ more → first = second ∧ rest = more
  | .group group, second, rest, more, h => by
    cases second with
    | group other =>
      obtain ⟨rfl, hrest⟩ := group.eq_of_symbols other h
      exact ⟨rfl, hrest⟩
    | _ => cases group <;> simp [Term.symbols, Group.symbols] at h
  | .literal _, second, rest, more, h | .var _, second, rest, more, h
  | .raw _, second, rest, more, h => by
    cases second with
    | group other => cases other <;> simp [Term.symbols, Group.symbols] at h
    | _ => simp_all [Term.symbols]

theorem Group.eq_of_symbols : ∀ (first second : Group) {rest more : List Symbol},
    first.symbols ++ rest = second.symbols ++ more → first = second ∧ rest = more
  | .object members, .object others, rest, more, h => by
    have hmembers : members.symbols ++ .closeBrace :: rest =
        others.symbols ++ .closeBrace :: more := by simpa [Group.symbols] using h
    obtain ⟨rfl, hrest⟩ := members.eq_of_symbols others (by simp) (by simp) hmembers
    exact ⟨rfl, (List.cons.inj hrest).2⟩
  | .array elements, .array others, rest, more, h => by
    have helements : elements.symbols ++ .closeBracket :: rest =
        others.symbols ++ .closeBracket :: more := by simpa [Group.symbols] using h
    obtain ⟨rfl, hrest⟩ := elements.eq_of_symbols others helements
    exact ⟨rfl, hrest⟩
  | .object _, .array _, _, _, h | .array _, .object _, _, _, h => by simp [Group.symbols] at h

theorem Tail.eq_of_symbols : ∀ (first second : Tail) {rest more : List Symbol},
    first.symbols ++ rest = second.symbols ++ more → first = second ∧ rest = more
  | .assign value, .assign other, rest, more, h => by
    obtain ⟨rfl, hrest⟩ := value.eq_of_symbols other (List.cons.inj h).2
    exact ⟨rfl, hrest⟩
  | .path name tail, .path other others, rest, more, h => by
    obtain ⟨rfl, htail⟩ : name = other ∧ tail.symbols ++ rest = others.symbols ++ more := by
      simpa [Tail.symbols] using h
    obtain ⟨rfl, hrest⟩ := tail.eq_of_symbols others htail
    exact ⟨rfl, hrest⟩
  | .assign _, .path _ _, _, _, h | .path _ _, .assign _, _, _, h => by simp [Tail.symbols] at h

theorem Members.eq_of_symbols : ∀ (first second : Members) {rest more : List Symbol},
    (∀ name, rest.head? ≠ some (.literal name)) → (∀ name, more.head? ≠ some (.literal name)) →
    first.symbols ++ rest = second.symbols ++ more → first = second ∧ rest = more
  | .nil, .nil, rest, more, _, _, h => ⟨rfl, h⟩
  | .cons name tail members, .cons other others membersOf, rest, more, hrest, hmore, h => by
    obtain ⟨rfl, htail⟩ : name = other ∧ tail.symbols ++ (members.symbols ++ rest) =
        others.symbols ++ (membersOf.symbols ++ more) := by simpa [Members.symbols] using h
    obtain ⟨rfl, hmembers⟩ := tail.eq_of_symbols others htail
    obtain ⟨rfl, heq⟩ := members.eq_of_symbols membersOf hrest hmore hmembers
    exact ⟨rfl, heq⟩
  | .nil, .cons name _ _, rest, more, hrest, _, h => by
    -- fields go on as long as literals do
    have hhead : rest.head? = some (.literal name) := congrArg List.head? h
    exact absurd hhead (hrest name)
  | .cons name _ _, .nil, rest, more, _, hmore, h => by
    have hhead : more.head? = some (.literal name) := congrArg List.head? h.symm
    exact absurd hhead (hmore name)

theorem Elements.eq_of_symbols : ∀ (first second : Elements) {rest more : List Symbol},
    first.symbols ++ .closeBracket :: rest = second.symbols ++ .closeBracket :: more →
      first = second ∧ rest = more
  | .nil, second, rest, more, h => by
    obtain rfl := Elements.eq_nil_of_head? (congrArg List.head? h.symm)
    exact ⟨rfl, (List.cons.inj h).2⟩
  | first, .nil, rest, more, h => by
    obtain rfl := Elements.eq_nil_of_head? (congrArg List.head? h)
    exact ⟨rfl, (List.cons.inj h).2⟩
  | .term value elements, .term other others, rest, more, h => by
    have hvalue : value.symbols ++ (elements.symbols ++ .closeBracket :: rest) =
        other.symbols ++ (others.symbols ++ .closeBracket :: more) := by
      simpa [Elements.symbols] using h
    obtain ⟨rfl, helements⟩ := value.eq_of_symbols other hvalue
    obtain ⟨rfl, hrest⟩ := elements.eq_of_symbols others helements
    exact ⟨rfl, hrest⟩
  | .field name tail elements, .field other otherTail others, rest, more, h => by
    obtain ⟨rfl, htail⟩ : name = other ∧
        tail.symbols ++ (elements.symbols ++ .closeBracket :: rest) =
          otherTail.symbols ++ (others.symbols ++ .closeBracket :: more) := by
      simpa [Elements.symbols] using h
    obtain ⟨rfl, helements⟩ := tail.eq_of_symbols otherTail htail
    obtain ⟨rfl, hrest⟩ := elements.eq_of_symbols others helements
    exact ⟨rfl, hrest⟩
  | .term _ _, .field _ _ _, _, _, h => absurd h Elements.term_symbols_ne
  | .field _ _ _, .term _ _, _, _, h => absurd h.symm Elements.term_symbols_ne

end

theorem groups_eq_of_symbols {groups others : List Group}
    (h : groups.flatMap Group.symbols = others.flatMap Group.symbols) : groups = others := by
  induction groups generalizing others with
  | nil =>
    cases others with
    | nil => rfl
    | cons other others => simp [other.symbols_ne_nil] at h
  | cons group groups ih =>
    cases others with
    | nil => simp [group.symbols_ne_nil] at h
    | cons other others =>
      rw [List.flatMap_cons, List.flatMap_cons] at h
      obtain ⟨rfl, hrest⟩ := group.eq_of_symbols other h
      rw [ih hrest]

theorem Text.groups_symbols_ne (first : Group) (rest : List Group) (members : Members) :
    (Text.groups first rest).symbols ≠ (Text.fields members).symbols := by
  cases first <;> cases members <;> simp [Text.symbols, Group.symbols, Members.symbols]

/-- A text has at most one derivation. -/
theorem Text.eq_of_symbols {first second : Text} (h : first.symbols = second.symbols) :
    first = second := by
  cases first with
  | groups group groups =>
    cases second with
    | groups other others =>
      have heq : group :: groups = other :: others := groups_eq_of_symbols h
      obtain ⟨rfl, rfl⟩ := List.cons.inj heq
      rfl
    | fields members => exact absurd h (Text.groups_symbols_ne group groups members)
  | fields members =>
    cases second with
    | groups other others => exact absurd h.symm (Text.groups_symbols_ne other others members)
    | fields others =>
      have hmembers : members.symbols ++ [] = others.symbols ++ [] := by
        simpa [Text.symbols] using h
      rw [(members.eq_of_symbols others (by simp) (by simp) hmembers).1]

/-- A text is read as what its derivation denotes, unless that goes too deep or has a raw literal
that denotes nothing. -/
theorem readForest_eq_ok_iff_of_symbols {input : String} {text : Text}
    (hlex : (lex input).symbols? = some text.symbols) (forest : Forest) :
    readForest input = .ok forest ↔
      RawAccepted text.symbols ∧ text.levels ≤ nestingLimit ∧ text.denote = forest := by
  rw [readForest_eq_ok_iff, hlex]
  apply Iff.intro
  · rintro ⟨_, other, hsymbols, ⟨rfl, hraws, hlevels⟩, hdenote⟩
    obtain rfl := Text.eq_of_symbols (Option.some.inj hsymbols)
    exact ⟨hraws, hlevels, hdenote⟩
  · rintro ⟨hraws, hlevels, hdenote⟩
    exact ⟨_, text, rfl, ⟨rfl, hraws, hlevels⟩, hdenote⟩

theorem denote_eq_of_readForest {input : String} {forest : Forest} (text : Text)
    (hlex : (lex input).symbols? = some text.symbols) (hread : readForest input = .ok forest) :
    text.denote = forest :=
  ((readForest_eq_ok_iff_of_symbols hlex forest).1 hread).2.2

end JsonShorthand.Grammar
