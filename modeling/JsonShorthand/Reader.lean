import JsonShorthand.Fault
import JsonShorthand.Token.Stream

namespace JsonShorthand

structure Reader (State Result : Type) where
  start : State
  /-- The state after a symbol, given the symbol after it. -/
  step : State → Symbol → Option Symbol → Except Cause State
  finish : State → Except Cause Result

namespace Reader

variable {State Result : Type} (reader : Reader State Result)

/-- Reads on from a state, and tells what is left of the stream. Taking a token takes a look at the
next one, so a quote that is never closed right after a token is a fault before anything is made of
that token, which then stays in the stream as its last. -/
def run (state : State) : TokenStream → Except Fault Result × TokenStream
  | .finished size => ((reader.finish state).mapError (⟨·, size⟩), .finished size)
  | .unclosed quote size => (.error ⟨.unclosedString, quote⟩, .finished size)
  | .cons token (.unclosed quote size) =>
    (.error ⟨.unclosedString, quote⟩, .cons token (.finished size))
  | .cons token rest =>
    match reader.step state token.symbol rest.head? with
    | .ok next => run next rest
    | .error cause => (.error ⟨cause, token.position⟩, rest)

@[simp] theorem run_finished (state : State) (size : Nat) :
    reader.run state (.finished size) =
      ((reader.finish state).mapError (⟨·, size⟩), .finished size) := rfl

@[simp] theorem run_unclosed (state : State) (quote size : Nat) :
    reader.run state (.unclosed quote size) =
      (.error ⟨.unclosedString, quote⟩, .finished size) := rfl

@[simp] theorem run_cons_unclosed (state : State) (token : Token) (quote size : Nat) :
    reader.run state (.cons token (.unclosed quote size)) =
      (.error ⟨.unclosedString, quote⟩, .cons token (.finished size)) := rfl

theorem run_cons_of_ok {state next : State} {token : Token} {rest : TokenStream}
    (hrest : ∀ quote size, rest ≠ .unclosed quote size)
    (h : reader.step state token.symbol rest.head? = .ok next) :
    reader.run state (.cons token rest) = reader.run next rest := by
  rw [run]
  · simp [h]
  · exact hrest

theorem run_cons_of_error {state : State} {token : Token} {rest : TokenStream} {cause : Cause}
    (hrest : ∀ quote size, rest ≠ .unclosed quote size)
    (h : reader.step state token.symbol rest.head? = .error cause) :
    reader.run state (.cons token rest) = (.error ⟨cause, token.position⟩, rest) := by
  rw [run]
  · simp [h]
  · exact hrest

end Reader

/-- A text and those of its tokens that are still to be read. -/
structure Cursor where
  input : String
  pending : TokenStream

namespace Cursor

def ofText (input : String) : Cursor := ⟨input, lex input⟩

/-- A reader looks at the first token before it starts, so that token must not be a quote that is
never closed. -/
def ready (cursor : Cursor) : Except ParseError Cursor :=
  match cursor.pending with
  | .unclosed quote _ => .error ⟨cursor.input, ⟨.unclosedString, quote⟩⟩
  | _ => .ok cursor

/-- Reads from a cursor, and gives the cursor at what is left, also after a fault. -/
def read {State Result : Type} (reader : Reader State Result) (cursor : Cursor) :
    Except ParseError Result × Cursor :=
  let (result, left) := reader.run reader.start cursor.pending
  (result.mapError (⟨cursor.input, ·⟩), ⟨cursor.input, left⟩)

end Cursor

def Reader.read {State Result : Type} (reader : Reader State Result) (input : String) :
    Except ParseError Result :=
  (Cursor.read reader (.ofText input)).1

end JsonShorthand
