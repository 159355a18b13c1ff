import JsonShorthand.Forest
import JsonShorthand.Parser.Course

namespace JsonShorthand.Parser

variable {α β : Type}

theorem isOfLexer_of_scalar {symbol : Symbol} {cause : Cause} (h : symbol.scalar = .error cause) :
    cause.isOfLexer = false := by
  cases symbol with
  | literal text => contradiction
  | raw text =>
    rw [Symbol.scalar] at h
    split at h
    · contradiction
    · exact Except.error.inj h ▸ rfl
  | _ => exact Except.error.inj h ▸ rfl

def scalarOf (p : Parser) (symbol : Symbol) : Outcome Value p :=
  match h : symbol.scalar with
  | .ok v => .ok v
  | .error cause => p.fail cause (isOfLexer_of_scalar h)

mutual

def content (p : Parser) (symbol : Symbol) : Outcome Generator p :=
  match symbol with
  | .var name => .ok (.var name)
  | .openBrace => object p
  | .openBracket => array p
  | symbol => (p.scalarOf symbol).map .value
termination_by 4 * p.unread + 2

def object (p : Parser) : Outcome Generator p :=
  p.nested fun inner _ =>
    (fields .nil inner).andThen fun present left _ =>
      match h : left.next.symbol with
      | some .closeBrace => left.take h fun _ _ => .ok (.object present)
      | _ => left.reject .expectedCloseBrace rfl
termination_by 4 * p.unread + 1

def array (p : Parser) : Outcome Generator p := p.nested fun inner _ => elements [] inner
termination_by 4 * p.unread + 1

def fields (present : Fields Generator none) (p : Parser) : Outcome (Fields Generator none) p :=
  match h : p.next.symbol with
  | some (.literal name) =>
    p.take h fun left _ =>
      (tail left).andThen fun generator left _ => fields (present.add name generator) left
  | _ => .ok present
termination_by 4 * p.unread

/-- The elements of an array up to its closing bracket; the latest of the earlier ones is first. -/
def elements (earlier : List Generator) (p : Parser) : Outcome Generator p :=
  match h : p.next.symbol with
  | none => p.reject .unclosedArray rfl
  | some .closeBracket => p.take h fun _ _ => .ok (.array earlier.reverse)
  | some (.literal text) =>
    p.take h fun left _ =>
      if left.next.symbol = some .assign ∨ left.next.symbol = some .dot then
        (tail left).andThen fun generator left _ =>
          elements (.single text generator :: earlier) left
      else elements (.value (.string text) :: earlier) left
  | some symbol =>
    p.take h fun left _ =>
      (content left symbol).andThen fun generator left _ => elements (generator :: earlier) left
termination_by 4 * p.unread

def tail (p : Parser) : Outcome Generator p :=
  p.nested fun inner _ =>
    match h : inner.next.symbol with
    | none => inner.reject .unexpectedEnd rfl
    | some .assign => inner.take h fun left _ => value left
    | some .dot => inner.take h fun left _ => path left
    | some _ => inner.reject .unexpectedInput rfl
termination_by 4 * p.unread + 1

def path (p : Parser) : Outcome Generator p :=
  match h : p.next.symbol with
  | some (.literal name) =>
    p.take h fun left _ => (tail left).map (.single name)
  | _ => p.reject .expectedLiteral rfl
termination_by 4 * p.unread

def value (p : Parser) : Outcome Generator p :=
  match h : p.next.symbol with
  | none => p.reject .unexpectedEnd rfl
  | some symbol => p.take h fun left _ => content left symbol
termination_by 4 * p.unread

end

/-- The bracketed groups ahead; the latest of the earlier ones is first. -/
def groups (earlier : List Generator) (p : Parser) : Outcome Forest p :=
  match h : p.next.symbol with
  | some .openBrace =>
    p.take h fun left _ =>
      (object left).andThen fun generator left _ => groups (generator :: earlier) left
  | some .openBracket =>
    p.take h fun left _ =>
      (array left).andThen fun generator left _ => groups (generator :: earlier) left
  | _ => .ok earlier.reverse
termination_by p.unread

def start (p : Parser) : Outcome Forest p :=
  if p.next.symbol = some .openBrace ∨ p.next.symbol = some .openBracket then groups [] p
  else (fields .nil p).map fun present => [.object present]

def scalar (p : Parser) : Outcome Value p :=
  match h : p.next.symbol with
  | none => p.reject .unexpectedEnd rfl
  | some symbol => p.take h fun left _ => left.scalarOf symbol

theorem fields_of_literal (present : Fields Generator none) {p : Parser} {name : String}
    (h : p.next.symbol = some (.literal name)) :
    fields present p = p.take h fun left _ =>
      (tail left).andThen fun generator left _ => fields (present.add name generator) left := by
  rw [fields]
  split
  · next other hother =>
    obtain rfl := Symbol.literal.inj (Option.some.inj (hother.symm.trans h))
    rfl
  · next hother => exact absurd h (hother name)

theorem fields_of_other (present : Fields Generator none) {p : Parser}
    (h : ∀ name, p.next.symbol ≠ some (.literal name)) : fields present p = .ok present := by
  rw [fields]
  split
  · next name hname => exact absurd hname (h name)
  · rfl

theorem groups_of_openBrace (earlier : List Generator) {p : Parser}
    (h : p.next.symbol = some .openBrace) :
    groups earlier p = p.take h fun left _ =>
      (object left).andThen fun generator left _ => groups (generator :: earlier) left := by
  rw [groups]
  split
  · rfl
  · next hother => simp [h] at hother
  · next hother _ => exact absurd h hother

theorem groups_of_openBracket (earlier : List Generator) {p : Parser}
    (h : p.next.symbol = some .openBracket) :
    groups earlier p = p.take h fun left _ =>
      (array left).andThen fun generator left _ => groups (generator :: earlier) left := by
  rw [groups]
  split
  · next hother => simp [h] at hother
  · rfl
  · next _ hother => exact absurd h hother

theorem groups_of_other (earlier : List Generator) {p : Parser}
    (hbrace : p.next.symbol ≠ some .openBrace) (hbracket : p.next.symbol ≠ some .openBracket) :
    groups earlier p = .ok earlier.reverse := by
  rw [groups]
  split <;> simp_all

theorem scalar_of_end {p : Parser} (h : p.next.symbol = none) :
    p.scalar = p.reject .unexpectedEnd rfl := by
  rw [scalar]
  split
  · rfl
  · next symbol hsymbol => simp [h] at hsymbol

theorem scalar_of_symbol {p : Parser} {symbol : Symbol} (h : p.next.symbol = some symbol) :
    p.scalar = p.take h fun left _ => left.scalarOf symbol := by
  rw [scalar]
  split
  · next hend => simp [h] at hend
  · next other hother =>
    obtain rfl := Option.some.inj (hother.symm.trans h)
    rfl

inductive Call where
  | expressions
  | scalar
  deriving DecidableEq

inductive Reading where
  | forest (forest : Forest)
  | value (v : Value)

/-- What a parser answers to a call, the parser that is left, and the number of requests to the
lexer. -/
structure Answer where
  reading : Except ParseError Reading
  left : Parser
  requests : Nat

def finish (p : Parser) (reading : Reading) (requests : Nat) : Answer :=
  p.request
    (fun _ h =>
      ⟨if p.next.symbol = none then .ok reading
        else .error ⟨p.lexer.input, ⟨.unexpectedInput, (p.shift h).matched.position⟩⟩,
        p.shift h, requests + 1⟩)
    fun quote _ =>
      ⟨.error ⟨p.lexer.input, ⟨.unclosedString, quote⟩⟩, p.stall, requests + 1⟩

/-- After a result the end must be ahead. -/
def Outcome.close {p : Parser} : Outcome Reading p → Answer
  | ⟨.ok reading, left, requests, _⟩ => left.finish reading requests
  | ⟨.error error, left, requests, _⟩ => ⟨.error error, left, requests⟩

namespace Call

def read (p : Parser) : Call → Outcome Reading p
  | expressions => (start p).map .forest
  | scalar => p.scalar.map .value

/-- Reads what a call is for, down to the end. -/
def run (call : Call) (p : Parser) : Answer := (call.read p).close

end Call

def ask (p : Parser) : List Call → List Answer
  | [] => []
  | call :: calls => call.run p :: (call.run p).left.ask calls

/-- The parser that some calls leave. -/
def after (p : Parser) : List Call → Parser
  | [] => p
  | call :: calls => (call.run p).left.after calls

end JsonShorthand.Parser
