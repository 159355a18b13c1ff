import JsonShorthand.Forest

namespace JsonShorthand

/-- The symbols of a stream; `none` if it meets a quote that is never closed. -/
def TokenStream.symbols? : TokenStream → Option (List Symbol)
  | finished _ => some []
  | unclosed _ _ => none
  | cons token rest => rest.symbols?.map (token.symbol :: ·)

theorem TokenStream.head?_of_symbols? {stream : TokenStream} {symbols : List Symbol}
    (h : stream.symbols? = some symbols) : stream.head? = symbols.head? := by
  cases stream with
  | finished size => simp_all [symbols?, head?]
  | unclosed quote size => simp [symbols?] at h
  | cons token rest =>
    obtain ⟨others, _, rfl⟩ := Option.map_eq_some_iff.1 h
    rfl

theorem TokenStream.ne_unclosed_of_symbols? {stream : TokenStream} {symbols : List Symbol}
    (h : stream.symbols? = some symbols) (quote size : Nat) : stream ≠ .unclosed quote size := by
  rintro rfl
  simp [symbols?] at h

theorem TokenStream.exists_token_of_symbols? {stream : TokenStream} {symbols : List Symbol}
    (h : stream.symbols? = some symbols) {symbol : Symbol} (hsymbol : symbol ∈ symbols) :
    ∃ position, .token ⟨symbol, position⟩ ∈ stream.toList := by
  induction stream generalizing symbols with
  | finished size =>
    obtain rfl : symbols = [] := by simpa [symbols?, eq_comm] using h
    contradiction
  | unclosed quote size => simp [symbols?] at h
  | cons token rest ih =>
    obtain ⟨others, hothers, rfl⟩ := Option.map_eq_some_iff.1 h
    rcases List.mem_cons.1 hsymbol with rfl | hsymbol
    · exact ⟨token.position, List.mem_cons_self⟩
    · obtain ⟨position, hposition⟩ := ih hothers hsymbol
      exact ⟨position, List.mem_cons_of_mem _ hposition⟩

theorem mapError_eq_ok_iff {ε δ α : Type} (f : ε → δ) (x : Except ε α) (a : α) :
    x.mapError f = .ok a ↔ x = .ok a := by
  cases x with
  | error e => exact ⟨nofun, nofun⟩
  | ok b => exact ⟨fun h => congrArg _ (Except.ok.inj h), fun h => congrArg _ (Except.ok.inj h)⟩

theorem mapError_eq_error_iff {ε δ α : Type} (f : ε → δ) (x : Except ε α) (d : δ) :
    x.mapError f = .error d ↔ ∃ e, x = .error e ∧ f e = d := by
  cases x with
  | error e =>
    refine ⟨fun h => ⟨e, rfl, Except.error.inj h⟩, fun ⟨other, hother, hd⟩ => ?_⟩
    rw [Except.error.inj hother, ← hd]
    rfl
  | ok a => exact ⟨nofun, nofun⟩

namespace Reader

variable {State Result : Type} (reader : Reader State Result)

def accept (state : State) : List Symbol → Except Cause Result
  | [] => reader.finish state
  | symbol :: rest =>
    match reader.step state symbol rest.head? with
    | .ok next => accept next rest
    | .error cause => .error cause

theorem accept_cons_eq_ok_iff {state : State} {symbol : Symbol} {rest : List Symbol}
    {result : Result} :
    reader.accept state (symbol :: rest) = .ok result ↔
      ∃ next, reader.step state symbol rest.head? = .ok next ∧
        reader.accept next rest = .ok result := by
  cases h : reader.step state symbol rest.head? <;> simp [accept, h]

/-- A quote that is never closed spoils whatever stands before it. -/
theorem run_ne_ok {stream : TokenStream} (h : stream.symbols? = none) (state : State)
    (result : Result) : (reader.run state stream).1 ≠ .ok result := by
  induction stream generalizing state with
  | finished size => simp [TokenStream.symbols?] at h
  | unclosed quote size => simp
  | cons token rest ih =>
    have hrest : rest.symbols? = none := by simpa [TokenStream.symbols?] using h
    cases rest with
    | finished size => simp [TokenStream.symbols?] at hrest
    | unclosed quote size => simp
    | cons second others =>
      have hne : ∀ quote size, TokenStream.cons second others ≠ .unclosed quote size := by simp
      cases hstep : reader.step state token.symbol (TokenStream.cons second others).head? with
      | ok next => rw [run_cons_of_ok reader hne hstep]; exact ih hrest next
      | error cause => simp [run_cons_of_error reader hne hstep]

theorem run_eq_ok_iff {stream : TokenStream} {symbols : List Symbol}
    (h : stream.symbols? = some symbols) (state : State) (result : Result) :
    (reader.run state stream).1 = .ok result ↔ reader.accept state symbols = .ok result := by
  induction stream generalizing state symbols with
  | finished size =>
    obtain rfl : symbols = [] := by simpa [TokenStream.symbols?, eq_comm] using h
    simp [accept, mapError_eq_ok_iff]
  | unclosed quote size => simp [TokenStream.symbols?] at h
  | cons token rest ih =>
    obtain ⟨others, hothers, rfl⟩ := Option.map_eq_some_iff.1 h
    have hne := TokenStream.ne_unclosed_of_symbols? hothers
    have hhead := TokenStream.head?_of_symbols? hothers
    cases hstep : reader.step state token.symbol rest.head? with
    | ok next =>
      rw [run_cons_of_ok reader hne hstep, ih hothers, accept, ← hhead, hstep]
    | error cause =>
      rw [run_cons_of_error reader hne hstep, accept, ← hhead, hstep]
      simp

/-- A text is read just if its lexing meets no fault and its symbols are accepted. -/
theorem read_eq_ok_iff (input : String) (result : Result) :
    reader.read input = .ok result ↔
      ∃ symbols, (lex input).symbols? = some symbols ∧
        reader.accept reader.start symbols = .ok result := by
  have hread : reader.read input = .ok result ↔
      (reader.run reader.start (lex input)).1 = .ok result :=
    mapError_eq_ok_iff _ _ _
  cases h : (lex input).symbols? with
  | none => simp [hread, run_ne_ok reader h]
  | some symbols => simp [hread, run_eq_ok_iff reader h]

theorem read_eq_error_iff (input : String) (error : ParseError) :
    reader.read input = .error error ↔
      ∃ fault, (reader.run reader.start (lex input)).1 = .error fault ∧ ⟨input, fault⟩ = error :=
  mapError_eq_error_iff _ _ _

end Reader

end JsonShorthand
