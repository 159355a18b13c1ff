import Mathlib
import JsonShorthand.Proofs.Derivation

namespace JsonShorthand

/-- The offset of the token with an index, or of what stops the stream before it. -/
def TokenStream.positionAt : TokenStream → Nat → Nat
  | finished size, _ => size
  | unclosed quote _, _ => quote
  | cons token _, 0 => token.position
  | cons _ rest, index + 1 => rest.positionAt index

namespace Grammar

open Forest.State

/-- The symbols of a text whose raw literals denote something, however deep it is. -/
def IsSentence (symbols : List Symbol) : Prop :=
  RawAccepted symbols ∧ ∃ text : Text, text.symbols = symbols

def IsViable (symbols : List Symbol) : Prop := ∃ more, IsSentence (symbols ++ more)

/-- Symbols that complete a state within some limit, which is not lower than that of the reader. -/
def CanComplete (state : Forest.State) (symbols : List Symbol) : Prop :=
  RawAccepted symbols ∧
    ∃ limit forest, nestingLimit ≤ limit ∧ Completes limit forest state symbols

theorem canComplete_start_iff (symbols : List Symbol) :
    CanComplete .start symbols ↔ IsSentence symbols := by
  apply Iff.intro
  · intro h
    obtain ⟨hraws, limit, forest, -, text, hsymbols, -, -⟩ := h
    exact ⟨hraws, text, hsymbols.symm⟩
  · intro h
    obtain ⟨hraws, text, hsymbols⟩ := h
    exact ⟨hraws, max nestingLimit text.levels, text.denote, Nat.le_max_left _ _,
      text, hsymbols.symm, Nat.le_max_right _ _, rfl⟩

theorem IsViable.of_append {symbols others : List Symbol} (h : IsViable (symbols ++ others)) :
    IsViable symbols := by
  obtain ⟨more, hmore⟩ := h
  exact ⟨others ++ more, by rwa [List.append_assoc] at hmore⟩

theorem rawAccepted_cons {symbol : Symbol} {rest : List Symbol}
    (hsymbol : ∀ text, symbol ≠ .raw text) (hrest : RawAccepted rest) :
    RawAccepted (symbol :: rest) :=
  rawAccepted_cons_iff.2 ⟨fun text heq => absurd heq (hsymbol text), hrest⟩

theorem exists_closes (limit : Nat) (hole : Hole) (generator : Generator) :
    ∃ forest symbols, RawAccepted symbols ∧ Closes limit forest hole generator symbols := by
  induction hole generalizing generator with
  | group earlier =>
    exact ⟨(generator :: earlier).reverse, [], by simp [RawAccepted], [], rfl, Nat.zero_le _,
      by simp⟩
  | field present name =>
    exact ⟨_, [], by simp [RawAccepted], .nil, rfl, Nat.zero_le _, rfl⟩
  | member present name outer ih =>
    obtain ⟨forest, rest, hraws, hclose⟩ := ih (.object (present.add name generator))
    exact ⟨forest, .closeBrace :: rest, rawAccepted_cons nofun hraws, .nil, rest, rfl,
      Nat.zero_le _, hclose⟩
  | segment name outer ih => exact ih (.single name generator)
  | element earlier outer ih =>
    obtain ⟨forest, rest, hraws, hclose⟩ := ih (.array (generator :: earlier).reverse)
    exact ⟨forest, .closeBracket :: rest, rawAccepted_cons nofun hraws, .nil, rest, rfl,
      Nat.zero_le _, by simpa [Elements.denote] using hclose⟩

theorem exists_termCloses (limit : Nat) (hole : Hole) :
    ∃ forest symbols, RawAccepted symbols ∧ TermCloses limit forest hole symbols := by
  obtain ⟨forest, rest, hraws, hclose⟩ := exists_closes limit hole (.value (.string ""))
  exact ⟨forest, .literal "" :: rest, rawAccepted_cons nofun hraws, .literal "", rest, rfl,
    Nat.zero_le _, hclose⟩

theorem exists_tailCloses (limit : Nat) (hole : Hole) :
    ∃ forest symbols, RawAccepted symbols ∧ TailCloses limit forest hole symbols := by
  obtain ⟨forest, rest, hraws, hclose⟩ := exists_termCloses limit hole
  exact ⟨forest, .assign :: rest, rawAccepted_cons nofun hraws,
    (tailCloses_cons_iff ..).2 (.inl ⟨rfl, hclose⟩)⟩

theorem exists_canComplete (state : Forest.State) : ∃ symbols, CanComplete state symbols := by
  cases state with
  | start => exact ⟨[], (canComplete_start_iff []).2 ⟨by simp [RawAccepted], .fields .nil, rfl⟩⟩
  | groups earlier =>
    exact ⟨[], by simp [RawAccepted], nestingLimit, earlier.reverse, Nat.le_refl _, [], rfl,
      Nat.zero_le _, by simp⟩
  | fields present =>
    exact ⟨[], by simp [RawAccepted], nestingLimit, _, Nat.le_refl _, .nil, rfl, Nat.zero_le _, rfl⟩
  | members present outer =>
    obtain ⟨forest, rest, hraws, hclose⟩ := exists_closes nestingLimit outer (.object present)
    exact ⟨.closeBrace :: rest, rawAccepted_cons nofun hraws, nestingLimit, forest, Nat.le_refl _,
      (membersClose_cons_iff ..).2 (.inr ⟨rfl, hclose⟩)⟩
  | elements earlier outer =>
    obtain ⟨forest, rest, hraws, hclose⟩ :=
      exists_closes nestingLimit outer (.array earlier.reverse)
    exact ⟨.closeBracket :: rest, rawAccepted_cons nofun hraws, nestingLimit, forest,
      Nat.le_refl _, (elementsClose_cons_iff ..).2 (.inr (.inr ⟨rfl, hclose⟩))⟩
  | tail hole =>
    obtain ⟨forest, symbols, hraws, hclose⟩ := exists_tailCloses nestingLimit hole
    exact ⟨symbols, hraws, nestingLimit, forest, Nat.le_refl _, hclose⟩
  | path hole =>
    -- the name after a dot needs a level, which a high enough limit leaves free
    obtain ⟨forest, symbols, hraws, hclose⟩ :=
      exists_tailCloses (nestingLimit + hole.depth) (.segment "" hole)
    have hdepth : hole.depth < nestingLimit + hole.depth := by simp [nestingLimit]
    exact ⟨.literal "" :: symbols, rawAccepted_cons nofun hraws, nestingLimit + hole.depth, forest,
      Nat.le_add_right _ _, "", symbols, rfl, hdepth, hclose⟩
  | value hole =>
    obtain ⟨forest, symbols, hraws, hclose⟩ := exists_termCloses nestingLimit hole
    exact ⟨symbols, hraws, nestingLimit, forest, Nat.le_refl _, hclose⟩

variable {state next : Forest.State} {symbol : Symbol} {following : Option Symbol} {cause : Cause}

theorem step_eq_error (h : state.step symbol following = .error cause)
    (hcause : cause ≠ .nestingTooDeep) (other : Option Symbol) :
    state.step symbol other = .error cause := by
  rcases step_following_eq state symbol following other with heq | ⟨text, earlier, outer, rfl, rfl⟩
  · rw [← heq, h]
  · by_cases hname : following = some .assign ∨ following = some .dot
    · simp only [step, if_pos hname, openTail, descend] at h
      split at h
      · contradiction
      · exact absurd (Except.error.inj h).symm hcause
    · simp [step, if_neg hname] at h

theorem canComplete_cons (hstep : state.step symbol following = .ok next) {rest : List Symbol}
    (h : CanComplete next rest) : CanComplete state (symbol :: rest) := by
  obtain ⟨hraws, limit, forest, hlimit, hrest⟩ := h
  refine ⟨rawAccepted_cons_iff.2 ⟨?_, hraws⟩, limit, forest, hlimit,
    completes_of_step hlimit hstep hrest⟩
  rintro text rfl
  exact ofRaw?_isSome_of_step hstep

theorem canComplete_of_cons {rest : List Symbol} (hstep : state.step symbol rest.head? = .ok next)
    (h : CanComplete state (symbol :: rest)) : CanComplete next rest := by
  obtain ⟨hraws, limit, forest, hlimit, hsymbols⟩ := h
  obtain ⟨hraw, hraws⟩ := rawAccepted_cons_iff.1 hraws
  obtain ⟨after, hafter, hrest⟩ := step_of_completes hraw hsymbols
  rw [hstep] at hafter
  rcases hafter with heq | ⟨-, heq⟩
  · obtain rfl := Except.ok.inj heq
    exact ⟨hraws, limit, forest, hlimit, hrest⟩
  · contradiction

theorem not_canComplete_of_error (hstep : state.step symbol following = .error cause)
    (hcause : cause ≠ .nestingTooDeep) (rest : List Symbol) :
    ¬ CanComplete state (symbol :: rest) := by
  rintro ⟨hraws, limit, forest, -, hsymbols⟩
  obtain ⟨hraw, -⟩ := rawAccepted_cons_iff.1 hraws
  obtain ⟨after, hafter, -⟩ := step_of_completes hraw hsymbols
  rw [step_eq_error hstep hcause] at hafter
  rcases hafter with heq | ⟨-, heq⟩
  · contradiction
  · exact hcause (Except.error.inj heq)

/-- The symbols of which the one at `index` is the first that cannot be gone on from, or that lack
something if the index is that of their end. -/
structure FailsAt (state : Forest.State) (symbols : List Symbol) (index : Nat) : Prop where
  index_le : index ≤ symbols.length
  viable : ∃ more, CanComplete state (symbols.take index ++ more)
  hopeless : index < symbols.length →
    ∀ more, ¬ CanComplete state (symbols.take (index + 1) ++ more)
  lacking : index = symbols.length → ¬ CanComplete state symbols

theorem FailsAt.of_finish (h : state.finish = .error cause) : FailsAt state [] 0 where
  index_le := Nat.le_refl 0
  viable := exists_canComplete state
  hopeless := by simp
  lacking := by
    rintro - ⟨-, limit, forest, -, hcomplete⟩
    rw [← finish_eq_ok_iff, h] at hcomplete
    contradiction

theorem FailsAt.of_error (hstep : state.step symbol following = .error cause)
    (hcause : cause ≠ .nestingTooDeep) (rest : List Symbol) :
    FailsAt state (symbol :: rest) 0 where
  index_le := Nat.zero_le _
  viable := exists_canComplete state
  hopeless _ more := not_canComplete_of_error hstep hcause (rest.take 0 ++ more)
  lacking h := by simp at h

theorem FailsAt.cons {rest : List Symbol} {index : Nat}
    (hstep : state.step symbol rest.head? = .ok next) (h : FailsAt next rest index) :
    FailsAt state (symbol :: rest) (index + 1) where
  index_le := Nat.succ_le_succ h.index_le
  viable := by
    obtain ⟨more, hmore⟩ := h.viable
    exact ⟨more, canComplete_cons hstep hmore⟩
  hopeless hlt more hcomplete := by
    have hrest : index < rest.length := Nat.lt_of_succ_lt_succ hlt
    -- the symbol that was seen after this one is among those that are kept
    have hhead : (rest.take (index + 1) ++ more).head? = rest.head? := by
      cases rest with
      | nil => simp at hrest
      | cons second others => rfl
    exact h.hopeless hrest more (canComplete_of_cons (hhead ▸ hstep) hcomplete)
  lacking heq hcomplete :=
    h.lacking (Nat.succ.inj heq) (canComplete_of_cons hstep hcomplete)

/-- From every state, a run fails where its symbols do. -/
theorem failsAt_of_run {stream : TokenStream} {symbols : List Symbol} {fault : Fault}
    (hsymbols : stream.symbols? = some symbols)
    (hrun : (Forest.reader.run state stream).1 = .error fault)
    (hcause : fault.cause ≠ .nestingTooDeep) :
    ∃ index, fault.position = stream.positionAt index ∧ FailsAt state symbols index := by
  induction stream generalizing state symbols with
  | finished size =>
    obtain rfl : symbols = [] := by simpa [TokenStream.symbols?, eq_comm] using hsymbols
    obtain ⟨cause, hfinish, rfl⟩ := (mapError_eq_error_iff _ _ _).1 hrun
    exact ⟨0, rfl, .of_finish hfinish⟩
  | unclosed quote size => simp [TokenStream.symbols?] at hsymbols
  | cons token rest ih =>
    obtain ⟨others, hothers, rfl⟩ := Option.map_eq_some_iff.1 hsymbols
    have hclosed := TokenStream.ne_unclosed_of_symbols? hothers
    have hhead := TokenStream.head?_of_symbols? hothers
    cases hstep : state.step token.symbol rest.head? with
    | ok next =>
      rw [Forest.reader.run_cons_of_ok hclosed hstep] at hrun
      obtain ⟨index, hposition, hfails⟩ := ih hothers hrun
      exact ⟨index + 1, hposition, .cons (hhead ▸ hstep) hfails⟩
    | error cause =>
      rw [Forest.reader.run_cons_of_error hclosed hstep] at hrun
      obtain rfl := Except.error.inj hrun
      exact ⟨0, rfl, .of_error hstep hcause others⟩

/-- A text whose quotes are closed and that is not too deep fails at the first token that makes it
hopeless. That token is the end of the text just if the text could still be completed. -/
theorem readForest_fault_at_first_hopeless {input : String} {symbols : List Symbol}
    {error : ParseError} (hsymbols : (lex input).symbols? = some symbols)
    (hread : readForest input = .error error)
    (hmessage : error.fault.cause.message ≠ "Nesting too deep") :
    ∃ index ≤ symbols.length, error.fault.position = (lex input).positionAt index ∧
      IsViable (symbols.take index) ∧
      (index < symbols.length → ¬ IsViable (symbols.take (index + 1))) ∧
      (index = symbols.length → ¬ IsSentence symbols) ∧
      (index = symbols.length ↔ IsViable symbols) := by
  obtain ⟨fault, hrun, rfl⟩ := (Reader.read_eq_error_iff Forest.reader input error).1 hread
  have hcause : fault.cause ≠ .nestingTooDeep := by
    intro heq
    exact hmessage (congrArg Cause.message heq)
  obtain ⟨index, hposition, hfails⟩ := failsAt_of_run hsymbols hrun hcause
  have hviable : IsViable (symbols.take index) := by
    obtain ⟨more, hmore⟩ := hfails.viable
    exact ⟨more, (canComplete_start_iff _).1 hmore⟩
  have hhopeless : index < symbols.length → ¬ IsViable (symbols.take (index + 1)) := by
    rintro hlt ⟨more, hmore⟩
    exact hfails.hopeless hlt more ((canComplete_start_iff _).2 hmore)
  refine ⟨index, hfails.index_le, hposition, hviable, hhopeless, ?_, ?_, ?_⟩
  · intro hend hsentence
    exact hfails.lacking hend ((canComplete_start_iff symbols).2 hsentence)
  · intro hend
    rwa [hend, List.take_length] at hviable
  · intro hsymbols
    -- what begins with hopeless symbols is hopeless itself, so the fault is at the end
    rcases Nat.lt_or_eq_of_le hfails.index_le with hlt | hend
    · rw [← List.take_append_drop (index + 1) symbols] at hsymbols
      exact absurd hsymbols.of_append (hhopeless hlt)
    · exact hend

theorem readForest_fault_at_first_hopeless_path :
    let symbols : List Symbol :=
      [.literal "é", .assign, .openBracket, .raw "1", .openBrace, .literal "a", .dot, .assign]
    (lex "é=[:1 \x7ba.=").symbols? = some symbols ∧
      readForest "é=[:1 \x7ba.=" = .error ⟨"é=[:1 \x7ba.=", ⟨.expectedLiteral, 10⟩⟩ ∧
      ∃ index ≤ 8, 10 = (lex "é=[:1 \x7ba.=").positionAt index ∧ IsViable (symbols.take index) ∧
        (index < 8 → ¬ IsViable (symbols.take (index + 1))) ∧
        (index = 8 → ¬ IsSentence symbols) ∧ (index = 8 ↔ IsViable symbols) := by
  have hsymbols : (lex "é=[:1 \x7ba.=").symbols? = some [.literal "é", .assign, .openBracket,
      .raw "1", .openBrace, .literal "a", .dot, .assign] := by cbv
  have hrun : (Forest.reader.run .start (lex "é=[:1 \x7ba.=")).1 =
      .error ⟨.expectedLiteral, 10⟩ := by cbv
  have hread : readForest "é=[:1 \x7ba.=" = .error ⟨"é=[:1 \x7ba.=", ⟨.expectedLiteral, 10⟩⟩ :=
    (Reader.read_eq_error_iff _ _ _).2 ⟨_, hrun, rfl⟩
  exact ⟨hsymbols, hread, readForest_fault_at_first_hopeless hsymbols hread (by decide)⟩

end Grammar

end JsonShorthand
