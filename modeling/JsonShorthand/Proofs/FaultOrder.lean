import Mathlib
import JsonShorthand.Proofs.Lexing
import JsonShorthand.Proofs.ViablePrefix

namespace JsonShorthand

def Cause.isOfToken : Cause → Bool
  | unexpectedInput | nestingTooDeep | invalidRaw _ => true
  | _ => false

/-- What is told in the place of a fault of a token if `later` follows the tokens `left` after
it. -/
def Fault.inView (fault : Fault) : TokenStream → TokenStream → Fault
  | .finished _, .unclosed quote _ => ⟨.unclosedString, quote⟩
  | _, _ => fault

namespace TokenStream

def graft : TokenStream → TokenStream → TokenStream
  | finished _, later => later
  | unclosed _ _, later => later
  | cons token rest, later => cons token (rest.graft later)

end TokenStream

/-- In front of a delimiter a text has the tokens that it has by itself, up to a quote that is not
closed in it; what comes after is the tokens of the rest if there is no such quote. -/
theorem exists_lexFrom_append_eq_graft {rest : List Char}
    (hrest : ∀ d, rest.head? = some d → isDelimiter d) (text : List Char) (offset : Nat) :
    ∃ later, lexFrom offset (text ++ rest) = (lexFrom offset text).graft later ∧
      ((lexFrom offset text).symbols? ≠ none →
        later = lexFrom (offset + byteLength text) rest) := by
  induction text using lexeme_induction generalizing offset with
  | nil => exact ⟨lexFrom offset rest, by simp [TokenStream.graft], fun _ => rfl⟩
  | space text ih =>
    obtain ⟨later, hlater, hclosed⟩ := ih (offset + 1)
    refine ⟨later, by simpa using hlater, ?_⟩
    have hsize : byteLength (' ' :: text) = 1 + byteLength text := rfl
    rw [lexFrom_space, hsize, ← Nat.add_assoc]
    exact hclosed
  | unclosed c text hc hscan =>
    -- what follows may close the quote, so nothing is known of the tokens from there on
    rw [lexFrom_of_unclosed hc hscan]
    exact ⟨lexFrom offset (c :: text ++ rest), rfl, fun hclosed => absurd rfl hclosed⟩
  | lexeme c text lexeme hc hscan ih =>
    obtain ⟨later, hlater, hclosed⟩ := ih (offset + byteLength lexeme.source)
    refine ⟨later, ?_, fun hsymbols => ?_⟩
    · rw [List.cons_append, lexFrom_of_scan? hc (Lexeme.scan?_append hscan hrest),
        lexFrom_of_scan? hc hscan, TokenStream.graft, hlater]
    · rw [Lexeme.byteLength_of_scan? hscan, ← Nat.add_assoc]
      apply hclosed
      intro hnone
      exact hsymbols (by simp [lexFrom_of_scan? hc hscan, TokenStream.symbols?, hnone])

namespace Grammar

open Forest.State

variable {state : Forest.State} {symbol : Symbol} {cause : Cause}

theorem not_isOfToken_of_finish (h : state.finish = .error cause) : ¬ cause.isOfToken := by
  cases state <;> simp only [finish, reduceCtorEq, Except.error.injEq] at h
  all_goals
    subst h
    simp [Cause.isOfToken]

theorem step_eq_error_of_end (h : state.step symbol none = .error cause)
    (following : Option Symbol) : state.step symbol following = .error cause := by
  rcases step_following_eq state symbol none following with heq | ⟨text, earlier, outer, rfl, rfl⟩
  · rw [← heq, h]
  · simp [step] at h

/-- From a state, a stream has a fault at a token, and `left` is what comes after that token. -/
inductive FailsBefore (fault : Fault) : Forest.State → TokenStream → TokenStream → Prop where
  | here {state : Forest.State} {token : Token} {left : TokenStream}
      (hleft : ∀ quote size, left ≠ .unclosed quote size)
      (hstep : state.step token.symbol left.head? = .error fault.cause)
      (hposition : token.position = fault.position) :
      FailsBefore fault state (.cons token left) left
  | after {state next : Forest.State} {token second : Token} {others left : TokenStream}
      (hstep : state.step token.symbol (some second.symbol) = .ok next)
      (hnext : FailsBefore fault next (.cons second others) left) :
      FailsBefore fault state (.cons token (.cons second others)) left

theorem run_finished_ne {fault : Fault} (hcause : fault.cause.isOfToken) (state : Forest.State)
    (size : Nat) : (Forest.reader.run state (.finished size)).1 ≠ .error fault := by
  intro hrun
  obtain ⟨cause, hfinish, rfl⟩ := (mapError_eq_error_iff _ _ _).1 hrun
  exact not_isOfToken_of_finish hfinish hcause

theorem failsBefore_of_run {stream left : TokenStream} {fault : Fault}
    (hrun : Forest.reader.run state stream = (.error fault, left))
    (hcause : fault.cause.isOfToken) : FailsBefore fault state stream left := by
  induction stream generalizing state with
  | finished size => exact absurd (congrArg Prod.fst hrun) (run_finished_ne hcause state size)
  | unclosed quote size =>
    obtain rfl := Except.error.inj (congrArg Prod.fst hrun)
    contradiction
  | cons token rest ih =>
    rcases rest.eq_unclosed_or with ⟨quote, size, rfl⟩ | hclosed
    · obtain rfl := Except.error.inj (congrArg Prod.fst hrun)
      contradiction
    · cases hstep : state.step token.symbol rest.head? with
      | error cause =>
        rw [Forest.reader.run_cons_of_error hclosed hstep] at hrun
        obtain ⟨hfault, rfl⟩ := Prod.mk.inj hrun
        obtain rfl := Except.error.inj hfault
        exact .here hclosed hstep rfl
      | ok next =>
        rw [Forest.reader.run_cons_of_ok hclosed hstep] at hrun
        cases rest with
        | finished size => exact absurd (congrArg Prod.fst hrun) (run_finished_ne hcause next size)
        | unclosed quote size => simp at hclosed
        | cons second others => exact .after hstep (ih hrun)

namespace FailsBefore

variable {fault : Fault} {stream left : TokenStream}

/-- The fault stays whatever takes the place of the end, unless the token was the last one and a
quote that nothing closes is now after it. -/
theorem run_graft (h : FailsBefore fault state stream left) (later : TokenStream) :
    (Forest.reader.run state (stream.graft later)).1 = .error (fault.inView left later) := by
  induction h with
  | @here state token left hleft hstep hposition =>
    have hfault : (⟨fault.cause, token.position⟩ : Fault) = fault := by rw [hposition]
    have herror : ∀ rest : TokenStream, (∀ quote size, rest ≠ .unclosed quote size) →
        state.step token.symbol rest.head? = .error fault.cause →
        (Forest.reader.run state (.cons token rest)).1 = .error fault := by
      intro rest hrest hagain
      rw [Forest.reader.run_cons_of_error hrest hagain, hfault]
    cases left with
    | unclosed quote size => simp at hleft
    | cons second others => exact herror _ (by simp [TokenStream.graft]) hstep
    | finished size =>
      -- a fault in view of the end is one in view of any symbol; only a quote comes before it
      have hagain := step_eq_error_of_end hstep later.head?
      cases later with
      | unclosed quote size => rfl
      | finished size => exact herror _ (by simp [TokenStream.graft]) hagain
      | cons second others => exact herror _ (by simp [TokenStream.graft]) hagain
  | @after state next token second others left hstep _ ih =>
    have hrest : ∀ quote size, (TokenStream.cons second others).graft later ≠
        .unclosed quote size := by simp [TokenStream.graft]
    rw [TokenStream.graft, Forest.reader.run_cons_of_ok hrest hstep]
    exact ih

theorem symbols?_ne_none (h : FailsBefore fault state stream left) {size : Nat}
    (hleft : left = .finished size) : stream.symbols? ≠ none := by
  induction h with
  | here =>
    subst hleft
    simp [TokenStream.symbols?]
  | after _ _ ih => simpa [TokenStream.symbols?] using ih hleft

end FailsBefore

end Grammar

open Grammar

def unread (input : String) : TokenStream := (Cursor.read Forest.reader (.ofText input)).2.pending

theorem readForest_join_of_isOfToken {x : String} {error : ParseError}
    (hx : readForest x = .error error) (hcause : error.fault.cause.isOfToken) (y : String) :
    readForest (x ++ " " ++ y) = .error ⟨x ++ " " ++ y,
      error.fault.inView (unread x) ((lex y).shift (x.utf8ByteSize + 1))⟩ := by
  obtain ⟨fault, hrun, rfl⟩ := (Reader.read_eq_error_iff Forest.reader x error).1 hx
  have hfails : FailsBefore fault .start (lex x) (unread x) :=
    failsBefore_of_run (Prod.ext hrun rfl) hcause
  have hspace : ∀ d, (' ' :: y.toList).head? = some d → isDelimiter d := by simp [isDelimiter]
  have hchars : (x ++ " " ++ y).toList = x.toList ++ ' ' :: y.toList := by simp
  obtain ⟨later, hlater, hclosed⟩ := exists_lexFrom_append_eq_graft hspace x.toList 0
  have hjoin : lex (x ++ " " ++ y) = (lex x).graft later := by
    rw [lex, hchars, hlater]
    rfl
  refine (Reader.read_eq_error_iff Forest.reader _ _).2 ⟨_, ?_, rfl⟩
  have hgraft : (Forest.reader.run Forest.reader.start ((lex x).graft later)).1 =
      .error (fault.inView (unread x) later) := hfails.run_graft later
  rw [hjoin, hgraft]
  -- what follows matters only if nothing is left, and then the first text is closed
  cases hleft : unread x with
  | finished size =>
    have hshift : lexFrom (x.utf8ByteSize + 1) y.toList = (lex y).shift (x.utf8ByteSize + 1) := by
      rw [lex, ← lexFrom_add, Nat.zero_add]
    rw [hclosed (hfails.symbols?_ne_none hleft), lexFrom_space, byteLength_toList, Nat.zero_add,
      hshift]
  | unclosed quote size => rfl
  | cons token rest => rfl

/-- A fault of a token is told again whatever follows the text, well formed or not, unless the token
is the last of the text and what follows begins with a quote that nothing closes: then that quote is
told. -/
theorem readForest_first_fault_iff {x : String} {error : ParseError}
    (hx : readForest x = .error error) (hcause : error.fault.cause.isOfToken) (y : String) :
    (readForest (x ++ " " ++ y) = .error ⟨x ++ " " ++ y, error.fault⟩ ↔
      ¬ ((∃ size, unread x = .finished size) ∧ ∃ quote size, lex y = .unclosed quote size)) ∧
    ∀ size quote size', unread x = .finished size → lex y = .unclosed quote size' →
      readForest (x ++ " " ++ y) =
        .error ⟨x ++ " " ++ y, ⟨.unclosedString, quote + x.utf8ByteSize + 1⟩⟩ := by
  have hjoin := readForest_join_of_isOfToken hx hcause y
  refine ⟨⟨?_, ?_⟩, ?_⟩
  · rintro hsame ⟨⟨size, hleft⟩, quote, size', hlex⟩
    rw [hjoin, hleft, hlex] at hsame
    have hfault : (⟨.unclosedString, quote + (x.utf8ByteSize + 1)⟩ : Fault) = error.fault :=
      congrArg ParseError.fault (Except.error.inj hsame)
    rw [← hfault] at hcause
    contradiction
  · intro hnot
    rw [hjoin]
    cases hleft : unread x with
    | finished size =>
      cases hlex : lex y with
      | unclosed quote size' => exact absurd ⟨⟨size, hleft⟩, quote, size', hlex⟩ hnot
      | finished size' | cons token rest => rfl
    | unclosed quote size | cons token rest => rfl
  · intro size quote size' hleft hlex
    rw [hjoin, hleft, hlex]
    rfl

/-- The order of faults is not that of the text: after a brace that nothing opens, a quote that
nothing closes is told although the brace comes first. -/
theorem readForest_first_fault_superseded :
    readForest "\x7d" = .error ⟨"\x7d", ⟨.unexpectedInput, 0⟩⟩ ∧
      readForest ("\x7d" ++ " " ++ "\"abc") =
        .error ⟨"\x7d" ++ " " ++ "\"abc", ⟨.unclosedString, 2⟩⟩ := by
  refine ⟨?_, ?_⟩
  · exact (Reader.read_eq_error_iff _ _ _).2 ⟨_, by cbv, rfl⟩
  · exact (Reader.read_eq_error_iff _ _ _).2 ⟨_, by cbv, rfl⟩

theorem readForest_first_fault_iff_last :
    readForest "a=:1 :é" = .error ⟨"a=:1 :é", ⟨.unexpectedInput, 6⟩⟩ ∧
      readForest ("a=:1 :é" ++ " " ++ "\"b\"") =
        .error ⟨"a=:1 :é" ++ " " ++ "\"b\"", ⟨.unexpectedInput, 6⟩⟩ ∧
      readForest ("a=:1 :é" ++ " " ++ "\"b") =
        .error ⟨"a=:1 :é" ++ " " ++ "\"b", ⟨.unclosedString, 9⟩⟩ := by
  have hx : readForest "a=:1 :é" = .error ⟨"a=:1 :é", ⟨.unexpectedInput, 6⟩⟩ :=
    (Reader.read_eq_error_iff _ _ _).2 ⟨_, by cbv, rfl⟩
  refine ⟨hx, (readForest_first_fault_iff hx rfl "\"b\"").1.2 ?_, ?_⟩
  · rintro ⟨-, quote, size, hlex⟩
    have hsymbols : (lex "\"b\"").symbols? = some [.literal "b"] := by cbv
    rw [hlex] at hsymbols
    contradiction
  · exact (readForest_first_fault_iff hx rfl "\"b").2 8 0 2 (by cbv) (by cbv)

end JsonShorthand
