import JsonShorthand.Proofs.Reuse
import JsonShorthand.Proofs.Source

namespace JsonShorthand

namespace TokenStream

def items : TokenStream → List Pull
  | finished size => [.endOfInput size]
  | unclosed quote size => [.unclosed quote, .endOfInput size]
  | cons token rest => .token token :: rest.items

theorem items_pull_subset (stream : TokenStream) : stream.pull.2.items ⊆ stream.items := by
  cases stream with
  | finished size => exact List.Subset.refl _
  | unclosed quote size | cons token rest => exact List.subset_cons_self _ _

end TokenStream

namespace Lexer

theorem items_skip_subset (lexer : Lexer) (count : Nat) :
    (lexer.skip count).stream.items ⊆ lexer.stream.items := by
  induction count generalizing lexer with
  | zero => exact List.Subset.refl _
  | succ count ih =>
    have hrest : lexer.stream.pull.2 = lexer.next.2.stream := congrArg Prod.snd lexer.pull_stream
    have hfirst : lexer.next.2.stream.items ⊆ lexer.stream.items :=
      hrest ▸ lexer.stream.items_pull_subset
    exact List.Subset.trans (ih lexer.next.2) hfirst

theorem next_of_finished {lexer : Lexer} {size : Nat} (h : lexer.stream = .finished size) :
    lexer.next.1 = .endOfInput size := by
  have hpull := lexer.pull_stream
  rw [h] at hpull
  exact (Prod.mk.inj hpull).1.symm

theorem exists_skip_of_mem {lexer : Lexer} {pull : Pull} (h : pull ∈ lexer.stream.items) :
    ∃ count, (lexer.skip count).next.1 = pull := by
  have hpull := lexer.pull_stream
  generalize hstream : lexer.stream = stream at h hpull
  induction stream generalizing lexer with
  | finished size =>
    obtain rfl := List.mem_singleton.1 h
    exact ⟨0, next_of_finished hstream⟩
  | unclosed quote size =>
    obtain ⟨hnext, hrest⟩ := Prod.mk.inj hpull
    rcases List.mem_cons.1 h with rfl | h
    · exact ⟨0, hnext.symm⟩
    · obtain rfl := List.mem_singleton.1 h
      exact ⟨1, next_of_finished hrest.symm⟩
  | cons token rest ih =>
    obtain ⟨hnext, hrest⟩ := Prod.mk.inj hpull
    rcases List.mem_cons.1 h with rfl | h
    · exact ⟨0, hnext.symm⟩
    · obtain ⟨count, hcount⟩ := ih hrest.symm h (hrest ▸ lexer.next.2.pull_stream)
      exact ⟨count + 1, hcount⟩

end Lexer

def Pull.position : Pull → Nat
  | token first => first.position
  | unclosed quote => quote
  | endOfInput position => position

theorem Lexeme.exists_append_of_scan? {c : Char} {cs : List Char} {lexeme : Lexeme}
    (h : scan? c cs = some lexeme) :
    ∃ before after, lexeme.source = before ++ after ∧ byteLength before = lexeme.lead := by
  unfold scan? at h
  split at h
  case h_7 =>
    obtain ⟨⟨body, rest⟩, -, rfl⟩ := Option.map_eq_some_iff.1 h
    exact ⟨['"'], _, rfl, rfl⟩
  case h_8 | h_9 =>
    obtain rfl := Option.some.inj h
    exact ⟨[_], _, rfl, rfl⟩
  all_goals
    obtain rfl := Option.some.inj h
    exact ⟨[], _, rfl, rfl⟩

/-- What a request brings stands between two characters; an unclosed quote stands at a quote, and
the end behind everything. -/
theorem exists_append_of_mem_items {offset : Nat} {cs : List Char} {pull : Pull}
    (h : pull ∈ (lexFrom offset cs).items) :
    ∃ before after, cs = before ++ after ∧ pull.position = offset + byteLength before ∧
      (∀ quote, pull = .unclosed quote → ∃ rest, after = '"' :: rest) ∧
      ∀ size, pull = .endOfInput size → after = [] := by
  induction cs using lexeme_induction generalizing offset with
  | nil =>
    rw [lexFrom_nil] at h
    obtain rfl := List.mem_singleton.1 h
    exact ⟨[], [], rfl, rfl, nofun, fun _ _ => rfl⟩
  | space cs ih =>
    rw [lexFrom_space] at h
    obtain ⟨before, after, rfl, hposition, hrest⟩ := ih h
    exact ⟨' ' :: before, after, rfl, hposition.trans (Nat.add_assoc _ _ _), hrest⟩
  | unclosed c cs hc hscan =>
    obtain ⟨rfl, -⟩ := (Lexeme.scan?_eq_none_iff c cs).1 hscan
    rw [lexFrom_of_unclosed hc hscan] at h
    rcases List.mem_cons.1 h with rfl | h
    · exact ⟨[], '"' :: cs, rfl, rfl, fun _ _ => ⟨cs, rfl⟩, nofun⟩
    · obtain rfl := List.mem_singleton.1 h
      exact ⟨'"' :: cs, [], (List.append_nil _).symm, rfl, nofun, fun _ _ => rfl⟩
  | lexeme c cs lexeme hc hscan ih =>
    have hsource := Lexeme.source_append_rest hscan
    rw [lexFrom_of_scan? hc hscan] at h
    rcases List.mem_cons.1 h with rfl | h
    · obtain ⟨before, after, hlead, hlength⟩ := Lexeme.exists_append_of_scan? hscan
      refine ⟨before, after ++ lexeme.rest, ?_, ?_, nofun, nofun⟩
      · rw [← hsource, hlead, List.append_assoc]
      · rw [hlength]
        rfl
    · obtain ⟨before, after, hafter, hposition, hrest⟩ := ih h
      refine ⟨lexeme.source ++ before, after, ?_, ?_, hrest⟩
      · rw [← hsource, hafter, List.append_assoc]
      · rw [hposition, byteLength_append, Nat.add_assoc]

def Cause.fitsToken : Cause → Bool
  | unclosedString | unexpectedEnd | unclosedArray => false
  | _ => true

def Cause.fitsEnd : Cause → Bool
  | unclosedString | unexpectedInput | nestingTooDeep | invalidRaw _ => false
  | _ => true

/-- Whether a cause may be told at what a request brings. -/
def Cause.Fits (cause : Cause) : Pull → Prop
  | .token _ => cause.fitsToken
  | .unclosed _ => cause = .unclosedString
  | .endOfInput _ => cause.fitsEnd

namespace Cause.Fits

variable {cause : Cause} {pull : Pull}

theorem exists_unclosed (h : cause.Fits pull) (hcause : cause = .unclosedString) :
    ∃ quote, pull = .unclosed quote := by
  subst hcause
  cases pull with
  | unclosed quote => exact ⟨quote, rfl⟩
  | token token | endOfInput position => cases h

theorem exists_token (h : cause.Fits pull)
    (hcause : cause = .unexpectedInput ∨ cause = .nestingTooDeep) :
    ∃ token, pull = .token token := by
  cases pull with
  | token token => exact ⟨token, rfl⟩
  | unclosed quote | endOfInput position => rcases hcause with rfl | rfl <;> cases h

theorem exists_endOfInput (h : cause.Fits pull)
    (hcause : cause = .unexpectedEnd ∨ cause = .unclosedArray) :
    ∃ position, pull = .endOfInput position := by
  cases pull with
  | endOfInput position => exact ⟨position, rfl⟩
  | token token | unclosed quote => rcases hcause with rfl | rfl <;> cases h

theorem exists_item (h : cause.Fits pull) (hcause : cause ≠ .unclosedString) :
    ∃ item, pull.item? = .ok item ∧ item.position = pull.position := by
  cases pull with
  | unclosed quote => exact absurd h hcause
  | token token | endOfInput position => exact ⟨_, rfl, rfl⟩

end Cause.Fits

/-- A fault at an item of a stream that fits its cause. -/
def Fault.IsIn (fault : Fault) (stream : TokenStream) : Prop :=
  ∃ pull ∈ stream.items, pull.position = fault.position ∧ fault.cause.Fits pull

theorem Fault.IsIn.mono {fault : Fault} {stream other : TokenStream} (h : fault.IsIn stream)
    (hsub : stream.items ⊆ other.items) : fault.IsIn other := by
  obtain ⟨pull, hpull, hfault⟩ := h
  exact ⟨pull, hsub hpull, hfault⟩

namespace Reader

variable {State Result : Type} {reader : Reader State Result}

/-- The causes of a reader fit the places at which it tells them. -/
structure Fits (reader : Reader State Result) : Prop where
  of_step : ∀ state symbol following cause, reader.step state symbol following = .error cause →
    cause.fitsToken
  of_finish : ∀ state cause, reader.finish state = .error cause → cause.fitsEnd

theorem Fits.isIn_of_run (hfits : reader.Fits) {state : State} {stream : TokenStream}
    {fault : Fault} (h : (reader.run state stream).1 = .error fault) : fault.IsIn stream := by
  induction stream generalizing state with
  | finished size =>
    obtain ⟨cause, hfinish, rfl⟩ := (mapError_eq_error_iff _ _ _).1 h
    exact ⟨.endOfInput size, List.mem_cons_self, rfl, hfits.of_finish _ _ hfinish⟩
  | unclosed quote size =>
    obtain rfl := Except.error.inj h
    exact ⟨.unclosed quote, List.mem_cons_self, rfl, rfl⟩
  | cons token rest ih =>
    have hsub : rest.items ⊆ (TokenStream.cons token rest).items := List.subset_cons_self _ _
    rcases rest.eq_unclosed_or with ⟨quote, size, rfl⟩ | hclosed
    · obtain rfl := Except.error.inj h
      exact ⟨.unclosed quote, hsub List.mem_cons_self, rfl, rfl⟩
    · cases hstep : reader.step state token.symbol rest.head? with
      | ok next =>
        rw [reader.run_cons_of_ok hclosed hstep] at h
        exact (ih h).mono hsub
      | error cause =>
        rw [reader.run_cons_of_error hclosed hstep] at h
        obtain rfl := Except.error.inj h
        exact ⟨.token token, List.mem_cons_self, rfl, hfits.of_step _ _ _ _ hstep⟩

theorem items_run_subset (state : State) (stream : TokenStream) :
    (reader.run state stream).2.items ⊆ stream.items := by
  induction stream generalizing state with
  | finished size => exact List.Subset.refl _
  | unclosed quote size => exact List.subset_cons_self _ _
  | cons token rest ih =>
    rcases rest.eq_unclosed_or with ⟨quote, size, rfl⟩ | hclosed
    · exact List.cons_subset_cons _ (List.subset_cons_self _ _)
    · cases hstep : reader.step state token.symbol rest.head? with
      | ok next =>
        rw [reader.run_cons_of_ok hclosed hstep]
        exact List.subset_cons_of_subset _ (ih next)
      | error cause =>
        rw [reader.run_cons_of_error hclosed hstep]
        exact List.subset_cons_self _ _

end Reader

theorem error_of_map_eq_error {α β ε : Type} {f : α → β} {result : Except ε α} {e : ε}
    (h : result.map f = .error e) : result = .error e := by
  cases result with
  | ok a => contradiction
  | error other => exact congrArg _ (Except.error.inj h)

theorem Symbol.fitsToken_of_scalar {symbol : Symbol} {cause : Cause}
    (h : symbol.scalar = .error cause) : cause.fitsToken := by
  cases symbol with
  | literal text => contradiction
  | raw text =>
    rw [Symbol.scalar] at h
    split at h
    · contradiction
    · exact Except.error.inj h ▸ rfl
  | _ => exact Except.error.inj h ▸ rfl

namespace Forest.State

theorem fitsToken_of_descend {depth : Nat} {next : State} {cause : Cause}
    (h : descend depth next = .error cause) : cause.fitsToken := by
  unfold descend at h
  split at h
  · contradiction
  · exact Except.error.inj h ▸ rfl

theorem fitsToken_of_stepValue {hole : Hole} {symbol : Symbol} {cause : Cause}
    (h : stepValue hole symbol = .error cause) : cause.fitsToken := by
  unfold stepValue at h
  split at h
  · contradiction
  · exact fitsToken_of_descend h
  · exact fitsToken_of_descend h
  · exact Symbol.fitsToken_of_scalar (error_of_map_eq_error h)

theorem fitsToken_of_step {state : State} {symbol : Symbol} {following : Option Symbol}
    {cause : Cause} (h : state.step symbol following = .error cause) : cause.fitsToken := by
  -- a symbol that a state can take fails only for the depth, and any other at once
  cases state with
  | start =>
    cases symbol with
    | openBrace | openBracket | literal name =>
      rw [step] at h
      exact fitsToken_of_descend h
    | _ => exact Except.error.inj h ▸ rfl
  | groups earlier =>
    cases symbol with
    | openBrace | openBracket =>
      rw [step] at h
      exact fitsToken_of_descend h
    | _ => exact Except.error.inj h ▸ rfl
  | fields present =>
    cases symbol with
    | literal name =>
      rw [step] at h
      exact fitsToken_of_descend h
    | _ => exact Except.error.inj h ▸ rfl
  | members present outer =>
    cases symbol with
    | literal name =>
      rw [step] at h
      exact fitsToken_of_descend h
    | closeBrace => contradiction
    | _ => exact Except.error.inj h ▸ rfl
  | elements earlier outer =>
    cases symbol with
    | literal text =>
      rw [step] at h
      split at h
      · exact fitsToken_of_descend h
      · contradiction
    | closeBracket => contradiction
    | _ =>
      simp only [step] at h
      exact fitsToken_of_stepValue h
  | tail hole =>
    cases symbol with
    | assign | dot => contradiction
    | _ => exact Except.error.inj h ▸ rfl
  | path hole =>
    cases symbol with
    | literal name =>
      rw [step] at h
      exact fitsToken_of_descend h
    | _ => exact Except.error.inj h ▸ rfl
  | value hole =>
    rw [step] at h
    exact fitsToken_of_stepValue h

theorem fitsEnd_of_finish {state : State} {cause : Cause} (h : state.finish = .error cause) :
    cause.fitsEnd := by
  cases state with
  | start | groups earlier | fields present => contradiction
  | _ => exact Except.error.inj h ▸ rfl

end Forest.State

theorem Forest.fits_reader : Forest.reader.Fits :=
  ⟨fun _ _ _ _ => State.fitsToken_of_step, fun _ _ => State.fitsEnd_of_finish⟩

theorem Value.fits_scalarReader : Value.scalarReader.Fits where
  of_step state symbol following cause h := by
    cases state with
    | none => exact Symbol.fitsToken_of_scalar (error_of_map_eq_error h)
    | some v => exact Except.error.inj h ▸ rfl
  of_finish state cause h := by
    cases state with
    | none => exact Except.error.inj h ▸ rfl
    | some v => contradiction

theorem columnAt?_append (before after : List Char) :
    columnAt? (before ++ after) (byteLength before) = some before.length := by
  induction before with
  | nil => rw [List.nil_append, columnAt?.eq_def]; rfl
  | cons c cs ih =>
    obtain ⟨width, hwidth⟩ : ∃ width, c.utf8Size = width + 1 :=
      ⟨_, (Nat.succ_pred_eq_of_pos (Char.utf8Size_pos c)).symm⟩
    have hlength : byteLength (c :: cs) = width + byteLength cs + 1 := by
      show c.utf8Size + byteLength cs = _
      omega
    have hfits : c.utf8Size ≤ width + byteLength cs + 1 := by omega
    have hrest : width + byteLength cs + 1 - c.utf8Size = byteLength cs := by omega
    rw [hlength, List.cons_append, columnAt?, if_pos hfits, hrest, ih]
    rfl

/-- An error of a text is about that text and a byte at which a character begins or ends, so that
its caret has a column. But for an unclosed quote there is a token, or the end, at that byte. -/
structure ParseError.Located (input : String) (error : ParseError) : Prop where
  input_eq : error.input = input
  exists_append : ∃ before after,
    input.toList = before ++ after ∧ byteLength before = error.fault.position ∧
      columnAt? input.toList error.fault.position = some before.length ∧
      error.display = "Parse error: " ++ error.fault.cause.message ++ "\n" ++ input ++ "\n" ++
        .ofList (.replicate before.length ' ') ++ "^" ∧
      (error.fault.cause = .unclosedString → ∃ rest, after = '"' :: rest)
  position_le : error.fault.position ≤ input.utf8ByteSize
  exists_item : error.fault.cause ≠ .unclosedString →
    ∃ count item, ((Lexer.ofText input).skip count).next.1.item? = .ok item ∧
      item.position = error.fault.position ∧
      (error.fault.cause = .unexpectedInput ∨ error.fault.cause = .nestingTooDeep →
        item.symbol ≠ none)
  position_eq : error.fault.cause = .unexpectedEnd ∨ error.fault.cause = .unclosedArray →
    error.fault.position = input.utf8ByteSize

theorem ParseError.display_of_append {input : String} {fault : Fault} {before after : List Char}
    (hchars : input.toList = before ++ after) (hbefore : byteLength before = fault.position) :
    columnAt? input.toList fault.position = some before.length ∧
      ParseError.display ⟨input, fault⟩ = "Parse error: " ++ fault.cause.message ++ "\n" ++ input ++
        "\n" ++ .ofList (.replicate before.length ' ') ++ "^" := by
  have hcolumn : columnAt? input.toList fault.position = some before.length := by
    rw [hchars, ← hbefore, columnAt?_append]
  refine ⟨hcolumn, ?_⟩
  unfold display pointAt
  dsimp only
  rw [hcolumn, Option.getD_some]

theorem Fault.IsIn.located {input : String} {fault : Fault} (h : fault.IsIn (lex input)) :
    ParseError.Located input ⟨input, fault⟩ := by
  obtain ⟨pull, hpull, hposition, hcause⟩ := h
  obtain ⟨before, after, hchars, hstart, hquote, hend⟩ := exists_append_of_mem_items hpull
  have hbefore : byteLength before = fault.position := by
    rw [← hposition, hstart, Nat.zero_add]
  have hsize : byteLength before + byteLength after = input.utf8ByteSize := by
    rw [← byteLength_append, ← hchars, byteLength_toList]
  obtain ⟨hcolumn, hdisplay⟩ := ParseError.display_of_append hchars hbefore
  obtain ⟨count, hcount⟩ : ∃ count, ((Lexer.ofText input).skip count).next.1 = pull :=
    Lexer.exists_skip_of_mem hpull
  refine ⟨rfl, ⟨before, after, hchars, hbefore, hcolumn, hdisplay, ?_⟩, ?_, ?_, ?_⟩
  · intro hunclosed
    obtain ⟨quote, rfl⟩ := hcause.exists_unclosed hunclosed
    exact hquote quote rfl
  · show fault.position ≤ input.utf8ByteSize
    omega
  · intro hclosed
    obtain ⟨item, hitem, hat⟩ := hcause.exists_item hclosed
    refine ⟨count, item, by rw [hcount, hitem], hat.trans hposition, fun hsymbol => ?_⟩
    obtain ⟨token, rfl⟩ := hcause.exists_token hsymbol
    obtain rfl := Except.ok.inj hitem
    exact Option.some_ne_none _
  · intro hmissing
    obtain ⟨position, rfl⟩ := hcause.exists_endOfInput hmissing
    obtain rfl := hend position rfl
    exact hbefore.symm.trans hsize

namespace Parser

theorem items_ofItem_subset {lexer : Lexer} {next : Item} (h : lexer.next.1.item? = .ok next) :
    (ofItem lexer h).pending.items ⊆ lexer.stream.items := by
  have hpending : (ofItem lexer h).pending = lexer.stream := (Lexer.stream_of_item h).symm
  rw [hpending]
  exact List.Subset.refl _

/-- A call tells faults only at items that were ahead of the parser, and leaves no others ahead. -/
theorem run_within (call : Call) {p : Parser} (hdepth : p.depth = 0) :
    (∀ error, (call.run p).reading = .error error →
      error.input = p.lexer.input ∧ error.fault.IsIn p.pending) ∧
    (call.run p).left.pending.items ⊆ p.pending.items := by
  -- what the readers of both calls have in common
  have hread {State Result : Type} {reader : Reader State Result} (hfits : reader.Fits)
      {f : Result → Reading} (h : (call.run p).reading = (p.cursor.read reader).1.map f ∧
        (call.run p).left.cursor = (p.cursor.read reader).2) :
      (∀ error, (call.run p).reading = .error error →
        error.input = p.lexer.input ∧ error.fault.IsIn p.pending) ∧
      (call.run p).left.pending.items ⊆ p.pending.items := by
    obtain ⟨hreading, hleft⟩ := h
    constructor
    · intro error herror
      rw [hreading] at herror
      obtain ⟨fault, hrun, rfl⟩ := (mapError_eq_error_iff _ _ _).1 (error_of_map_eq_error herror)
      exact ⟨rfl, hfits.isIn_of_run hrun⟩
    · have hpending : (call.run p).left.pending = (reader.run reader.start p.pending).2 :=
        congrArg Cursor.pending hleft
      rw [hpending]
      exact Reader.items_run_subset _ _
  cases call with
  | expressions => exact hread Forest.fits_reader (run_expressions p hdepth)
  | scalar => exact hread Value.fits_scalarReader (run_scalar p)

/-- Whatever a parser was asked before, it tells faults only at items that were ahead of it at
first. -/
theorem ask_within (calls : List Call) {p : Parser} (hdepth : p.depth = 0) {answer : Answer}
    (hanswer : answer ∈ p.ask calls) {error : ParseError} (herror : answer.reading = .error error) :
    error.input = p.lexer.input ∧ error.fault.IsIn p.pending := by
  induction calls generalizing p with
  | nil => contradiction
  | cons call calls ih =>
    obtain ⟨hfault, hleft⟩ := run_within call hdepth
    rcases List.mem_cons.1 hanswer with rfl | hanswer
    · exact hfault error herror
    · obtain ⟨hinput, hlater⟩ := ih ((depth_run call p).trans hdepth) hanswer
      exact ⟨hinput.trans (input_run call p), hlater.mono hleft⟩

end Parser

theorem ParseError.Located.of_isIn {input : String} {error : ParseError}
    (hinput : error.input = input) (h : error.fault.IsIn (lex input)) : error.Located input := by
  obtain ⟨text, fault⟩ := error
  obtain rfl : text = input := hinput
  exact h.located

theorem Reader.Fits.located_of_read {State Result : Type} {reader : Reader State Result}
    (hfits : reader.Fits) {input : String} {error : ParseError}
    (h : reader.read input = .error error) : error.Located input := by
  obtain ⟨fault, hrun, rfl⟩ := (reader.read_eq_error_iff input error).1 h
  exact (hfits.isIn_of_run hrun).located

namespace Parser

/-- Whatever is read, from a whole text or on any calls of a parser that begins somewhere in it, an
error is located in the text. -/
theorem errors_are_located :
    (∀ input error, readForest input = .error error → error.Located input) ∧
    (∀ input error, readScalar input = .error error → error.Located input) ∧
    (∀ input skipped error, new? ((Lexer.ofText input).skip skipped) = .error error →
      error.Located input) ∧
    ∀ input skipped start calls, new? ((Lexer.ofText input).skip skipped) = .ok start →
      ∀ answer ∈ start.ask calls, ∀ error, answer.reading = .error error →
        error.Located input := by
  have hskip (input : String) (skipped : Nat) :
      ((Lexer.ofText input).skip skipped).stream.items ⊆ (lex input).items :=
    (Lexer.ofText input).items_skip_subset skipped
  refine ⟨fun input error => Forest.fits_reader.located_of_read,
    fun input error => Value.fits_scalarReader.located_of_read, ?_, ?_⟩
  · intro input skipped error herror
    -- a parser is refused only at a quote that nothing closes
    cases h : ((Lexer.ofText input).skip skipped).next.1.item? with
    | ok next =>
      rw [new?_of_item h] at herror
      contradiction
    | error quote =>
      rw [new?_of_unclosed h] at herror
      obtain rfl := Except.error.inj herror
      obtain ⟨size, hstream, -⟩ := Lexer.stream_of_unclosed h
      have hquote : .unclosed quote ∈ ((Lexer.ofText input).skip skipped).stream.items := by
        rw [hstream]
        exact List.mem_cons_self
      exact .of_isIn (Lexer.input_skip _ _)
        ⟨.unclosed quote, hskip input skipped hquote, rfl, rfl⟩
  · intro input skipped start calls hstart answer hanswer error herror
    obtain ⟨hinput, hfault⟩ := ask_within calls (depth_of_new? hstart) hanswer herror
    cases h : ((Lexer.ofText input).skip skipped).next.1.item? with
    | error quote =>
      rw [new?_of_unclosed h] at hstart
      contradiction
    | ok next =>
      obtain rfl := Except.ok.inj ((new?_of_item h).symm.trans hstart)
      have hpending := List.Subset.trans (items_ofItem_subset h) (hskip input skipped)
      exact .of_isIn (hinput.trans (Lexer.input_skip _ _)) (hfault.mono hpending)

/-- Errors of two calls on one parser, at a token after a character of two bytes and at the end. -/
theorem errors_are_located_twice :
    ∃ start, new? ((Lexer.ofText "[é=]").skip 0) = .ok start ∧
      ∃ first second, start.ask [.expressions, .scalar] = [first, second] ∧
        first.reading = .error ⟨"[é=]", ⟨.unexpectedInput, 4⟩⟩ ∧
        second.reading = .error ⟨"[é=]", ⟨.unexpectedEnd, 5⟩⟩ ∧
        ParseError.Located "[é=]" ⟨"[é=]", ⟨.unexpectedInput, 4⟩⟩ ∧
        ParseError.Located "[é=]" ⟨"[é=]", ⟨.unexpectedEnd, 5⟩⟩ := by
  have hnext : ((Lexer.ofText "[é=]").skip 0).next.1.item? = .ok ⟨some .openBracket, 0⟩ := by cbv
  have hstart := new?_of_item hnext
  have hlocated := errors_are_located.2.2.2 _ 0 _ [.expressions, .scalar] hstart
  have hfirst : (Call.expressions.run (ofItem _ hnext)).reading =
      .error ⟨"[é=]", ⟨.unexpectedInput, 4⟩⟩ := by
    rw [(run_expressions _ rfl).1]
    cbv
  have hsecond : (Call.scalar.run (Call.expressions.run (ofItem _ hnext)).left).reading =
      .error ⟨"[é=]", ⟨.unexpectedEnd, 5⟩⟩ := by
    rw [(run_scalar _).1, (run_expressions _ rfl).2]
    cbv
  exact ⟨_, hstart, _, _, rfl, hfirst, hsecond, hlocated _ List.mem_cons_self _ hfirst,
    hlocated _ (List.mem_cons_of_mem _ List.mem_cons_self) _ hsecond⟩

end Parser

end JsonShorthand
