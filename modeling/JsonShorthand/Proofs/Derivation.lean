import JsonShorthand.Proofs.Completion

namespace JsonShorthand.Grammar

open Forest.State

variable {forest : Forest}

theorem Group.symbols_ne_nil (group : Group) : group.symbols ≠ [] := by
  cases group <;> simp [Group.symbols]

theorem Term.symbols_ne_nil (term : Term) : term.symbols ≠ [] := by
  cases term with
  | group group => exact group.symbols_ne_nil
  | _ => simp [Term.symbols]

theorem Tail.symbols_ne_nil (tail : Tail) : tail.symbols ≠ [] := by
  cases tail <;> simp [Tail.symbols]

theorem Members.symbols_eq_nil_iff {members : Members} : members.symbols = [] ↔ members = .nil := by
  cases members <;> simp [Members.symbols]

theorem finish_eq_ok_iff (limit : Nat) (state : Forest.State) :
    state.finish = .ok forest ↔ Completes limit forest state [] := by
  -- a text may end in three of the states; what the others demand has a symbol at least
  cases state with
  | start =>
    apply Iff.intro
    · intro h
      obtain rfl := Except.ok.inj h
      exact ⟨.fields .nil, rfl, Nat.zero_le _, rfl⟩
    · rintro ⟨text, hsymbols, -, rfl⟩
      cases text with
      | groups first others =>
        simp [Text.symbols, first.symbols_ne_nil] at hsymbols
      | fields members =>
        obtain rfl := Members.symbols_eq_nil_iff.1 hsymbols.symm
        rfl
  | groups earlier =>
    apply Iff.intro
    · intro h
      obtain rfl := Except.ok.inj h
      exact ⟨[], rfl, Nat.zero_le _, by simp⟩
    · rintro ⟨groups, hsymbols, -, rfl⟩
      cases groups with
      | nil => simp [finish]
      | cons group groups => simp [group.symbols_ne_nil] at hsymbols
  | fields present =>
    apply Iff.intro
    · intro h
      obtain rfl := Except.ok.inj h
      exact ⟨.nil, rfl, Nat.zero_le _, rfl⟩
    · rintro ⟨members, hsymbols, -, rfl⟩
      obtain rfl := Members.symbols_eq_nil_iff.1 hsymbols.symm
      rfl
  | members present outer | elements earlier outer | path hole =>
    simp [finish, Completes, MembersClose, ElementsClose]
  | tail hole => simp [finish, Completes, TailCloses, Tail.symbols_ne_nil]
  | value hole => simp [finish, Completes, TermCloses, Term.symbols_ne_nil]

theorem rawAccepted_cons_iff {symbol : Symbol} {rest : List Symbol} :
    RawAccepted (symbol :: rest) ↔
      (∀ text, symbol = .raw text → (Value.ofRaw? text).isSome) ∧ RawAccepted rest := by
  simp only [RawAccepted, List.mem_cons, eq_comm (b := symbol)]
  grind

theorem rawAccepted_append_iff {symbols others : List Symbol} :
    RawAccepted (symbols ++ others) ↔ RawAccepted symbols ∧ RawAccepted others := by
  simp only [RawAccepted, List.mem_append]
  grind

/-- No state takes a raw literal that denotes nothing. -/
theorem ofRaw?_isSome_of_step {state next : Forest.State} {text : String}
    {following : Option Symbol} (h : state.step (.raw text) following = .ok next) :
    (Value.ofRaw? text).isSome := by
  cases hraw : Value.ofRaw? text with
  | some v => rfl
  | none => cases state <;> simp [step, stepValue, Symbol.scalar, hraw, Except.map] at h

/-- From every state, symbols are accepted just if they complete it. -/
theorem accept_eq_ok_iff (state : Forest.State) (symbols : List Symbol) :
    Forest.reader.accept state symbols = .ok forest ↔
      RawAccepted symbols ∧ Completes nestingLimit forest state symbols := by
  -- the induction is on the symbols; a step and the completion of its state go hand in hand
  induction symbols generalizing state with
  | nil =>
    simpa [RawAccepted, Reader.accept, Forest.reader] using finish_eq_ok_iff nestingLimit state
  | cons symbol rest ih =>
    rw [Reader.accept_cons_eq_ok_iff, rawAccepted_cons_iff]
    apply Iff.intro
    · intro h
      obtain ⟨next, hstep, haccept⟩ := h
      obtain ⟨hraws, hrest⟩ := (ih next).1 haccept
      refine ⟨⟨?_, hraws⟩, completes_of_step (Nat.le_refl _) hstep hrest⟩
      rintro text rfl
      exact ofRaw?_isSome_of_step hstep
    · intro h
      obtain ⟨⟨hraw, hraws⟩, h⟩ := h
      obtain ⟨next, hnext, hrest⟩ := step_of_completes hraw h
      have hstep : state.step symbol rest.head? = .ok next := by simpa [Permits] using hnext
      exact ⟨next, hstep, (ih next).2 ⟨hraws, hrest⟩⟩

theorem readForest_eq_ok_iff (input : String) (forest : Forest) :
    readForest input = .ok forest ↔
      ∃ symbols text, (lex input).symbols? = some symbols ∧
        Derives nestingLimit symbols text ∧ text.denote = forest := by
  unfold readForest
  rw [Reader.read_eq_ok_iff]
  apply Iff.intro
  · intro h
    obtain ⟨symbols, hlex, haccept⟩ := h
    obtain ⟨hraws, text, hsymbols, hlevels, hdenote⟩ := (accept_eq_ok_iff _ _).1 haccept
    exact ⟨symbols, text, hlex, ⟨hsymbols.symm, hraws, hlevels⟩, hdenote⟩
  · intro h
    obtain ⟨symbols, text, hlex, ⟨hsymbols, hraws, hlevels⟩, hdenote⟩ := h
    exact ⟨symbols, hlex, (accept_eq_ok_iff _ _).2 ⟨hraws, text, hsymbols.symm, hlevels, hdenote⟩⟩

/-- The forest of a text is what a derivation of its symbols denotes, and there is one just if the
symbols have a derivation with at most 128 open levels whose raw literals denote something. -/
theorem readForest_exact (input : String) :
    match (lex input).symbols? with
    | none => ∃ error, readForest input = .error error
    | some symbols => ∀ forest : Forest, readForest input = .ok forest ↔
      ∃ text : Text, text.symbols = symbols ∧
        (∀ body, .raw body ∈ symbols → (Value.ofRaw? body).isSome) ∧
        text.levels ≤ 128 ∧ text.denote = forest := by
  cases hlex : (lex input).symbols? with
  | none =>
    cases hread : readForest input with
    | error error => exact ⟨error, rfl⟩
    | ok forest =>
      obtain ⟨symbols, text, hsymbols, -⟩ := (readForest_eq_ok_iff input forest).1 hread
      simp [hlex] at hsymbols
  | some symbols =>
    intro forest
    rw [readForest_eq_ok_iff, hlex]
    apply Iff.intro
    · rintro ⟨_, text, hsymbols, ⟨rfl, hraws, hlevels⟩, hdenote⟩
      obtain rfl := Option.some.inj hsymbols
      exact ⟨text, rfl, hraws, hlevels, hdenote⟩
    · intro h
      obtain ⟨text, hsymbols, hraws, hlevels, hdenote⟩ := h
      exact ⟨symbols, text, rfl, ⟨hsymbols, hraws, hlevels⟩, hdenote⟩

end JsonShorthand.Grammar
