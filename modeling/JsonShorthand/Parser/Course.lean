import JsonShorthand.Fault
import JsonShorthand.Forest.Hole
import JsonShorthand.Token.Lexer

namespace JsonShorthand

@[reducible] def Cause.isOfLexer : Cause → Bool
  | unclosedString => true
  | _ => false

structure Parser where
  lexer : Lexer
  /-- The token that was taken last, at which faults are told. -/
  matched : Item
  next : Item
  depth : Nat
  atEnd : next.symbol = none → lexer.ahead = [] ∧ next.position = lexer.position

namespace Parser

def ofItem (lexer : Lexer) {next : Item} (h : lexer.next.1.item? = .ok next) : Parser :=
  ⟨lexer.next.2, ⟨none, 0⟩, next, 0, scan_of_item?_end h⟩

def new? (lexer : Lexer) : Except ParseError Parser :=
  match h : lexer.next.1.item? with
  | .ok _ => .ok (ofItem lexer h)
  | .error quote => .error ⟨lexer.input, ⟨.unclosedString, quote⟩⟩

theorem new?_of_item {lexer : Lexer} {next : Item} (h : lexer.next.1.item? = .ok next) :
    new? lexer = .ok (ofItem lexer h) := by
  unfold new?
  split
  · next other hother =>
    obtain rfl := Except.ok.inj (hother.symm.trans h)
    rfl
  · next quote hquote => simp [h] at hquote

theorem new?_of_unclosed {lexer : Lexer} {quote : Nat} (h : lexer.next.1.item? = .error quote) :
    new? lexer = .error ⟨lexer.input, ⟨.unclosedString, quote⟩⟩ := by
  unfold new?
  split
  · next other hother => simp [h] at hother
  · next other hother =>
    obtain rfl := Except.error.inj (hother.symm.trans h)
    rfl

theorem depth_of_new? {lexer : Lexer} {p : Parser} (h : new? lexer = .ok p) : p.depth = 0 := by
  unfold new? at h
  split at h
  · obtain rfl := Except.ok.inj h
    rfl
  · contradiction

/-- The tokens that were not taken yet. -/
def pending (p : Parser) : TokenStream := p.next.before p.lexer.stream

def unread (p : Parser) : Nat := p.pending.length

def shift (p : Parser) {next : Item} (h : p.lexer.next.1.item? = .ok next) : Parser :=
  { p with lexer := p.lexer.next.2, matched := p.next, next, atEnd := scan_of_item?_end h }

/-- The lexer has met an unclosed quote, and no token is taken. -/
def stall (p : Parser) : Parser :=
  { p with
    lexer := p.lexer.next.2
    atEnd := fun hend => by rw [Lexer.next_of_end (p.atEnd hend).1]; exact p.atEnd hend }

def enter (p : Parser) : Parser := { p with depth := p.depth + 1 }

def leave (p : Parser) : Parser := { p with depth := p.depth - 1 }

/-- What a production may do to a parser, with the cause of a fault and the number of requests to
the lexer. The token after the one to be taken is requested first, so an unclosed quote there leaves
the token untaken. -/
inductive Course : Parser → Option Cause → Nat → Parser → Prop where
  | stop (p : Parser) : Course p none 0 p
  | take {p left : Parser} {symbol : Symbol} {next : Item} {cause : Option Cause} {requests : Nat}
      (hp : p.next.symbol = some symbol) (h : p.lexer.next.1.item? = .ok next)
      (hleft : Course (p.shift h) cause requests left) : Course p cause (requests + 1) left
  | stall {p : Parser} {quote : Nat} (h : p.lexer.next.1.item? = .error quote) :
      Course p (some .unclosedString) 1 p.stall
  | reject {p : Parser} {next : Item} {cause : Cause} (h : p.lexer.next.1.item? = .ok next)
      (hcause : cause.isOfLexer = false) : Course p (some cause) 1 (p.shift h)
  | fail {cause : Cause} (p : Parser) (hcause : cause.isOfLexer = false) :
      Course p (some cause) 0 p
  | append {p middle left : Parser} {cause : Option Cause} {first second : Nat}
      (hfirst : Course p none first middle) (hsecond : Course middle cause second left) :
      Course p cause (first + second) left
  | nest {p left : Parser} {cause : Option Cause} {requests : Nat}
      (h : Course p.enter cause requests left) : Course p cause requests left.leave

theorem pending_of_symbol {p : Parser} {symbol : Symbol} (hp : p.next.symbol = some symbol) :
    p.pending = .cons ⟨symbol, p.next.position⟩ p.lexer.stream := by
  rw [pending, Item.before, hp]

theorem pending_of_end {p : Parser} (hp : p.next.symbol = none) :
    p.pending = .finished p.next.position := by
  rw [pending, Item.before, hp]

theorem pending_shift {p : Parser} {next : Item} (h : p.lexer.next.1.item? = .ok next) :
    (p.shift h).pending = p.lexer.stream := (Lexer.stream_of_item h).symm

theorem unread_shift_lt {p : Parser} {symbol : Symbol} {next : Item}
    (hp : p.next.symbol = some symbol) (h : p.lexer.next.1.item? = .ok next) :
    (p.shift h).unread < p.unread := by
  rw [unread, unread, pending_of_symbol hp, pending_shift h]
  exact Nat.lt_succ_self _

theorem pending_shift_of_end {p : Parser} {next : Item} (hp : p.next.symbol = none)
    (h : p.lexer.next.1.item? = .ok next) : (p.shift h).pending = p.pending := by
  rw [pending_of_end hp, pending_shift h, Lexer.stream, (p.atEnd hp).1, (p.atEnd hp).2, lexFrom_nil]

theorem unread_shift_le {p : Parser} {next : Item} (h : p.lexer.next.1.item? = .ok next) :
    (p.shift h).unread ≤ p.unread := by
  cases hp : p.next.symbol with
  | none => exact Nat.le_of_eq (congrArg TokenStream.length (pending_shift_of_end hp h))
  | some symbol => exact Nat.le_of_lt (unread_shift_lt hp h)

theorem unread_stall {p : Parser} {quote : Nat} (h : p.lexer.next.1.item? = .error quote) :
    p.stall.unread = p.unread := by
  obtain ⟨size, hstream, hrest⟩ := Lexer.stream_of_unclosed h
  have hstall : p.stall.pending = p.next.before (.finished size) := congrArg p.next.before hrest
  rw [unread, unread, hstall, pending, hstream, Item.before, Item.before]
  split <;> rfl

theorem Course.unread_le {p left : Parser} {cause : Option Cause} {requests : Nat}
    (h : Course p cause requests left) : left.unread ≤ p.unread := by
  induction h with
  | stop p | fail p hcause => exact Nat.le_refl _
  | take hp h _ ih => exact Nat.le_of_lt (Nat.lt_of_le_of_lt ih (unread_shift_lt hp h))
  | stall h => exact Nat.le_of_eq (unread_stall h)
  | reject h hcause => exact unread_shift_le h
  | append _ _ ihfirst ihsecond => exact Nat.le_trans ihsecond ihfirst
  | nest _ ih => exact ih

def causeOf {α : Type} : Except ParseError α → Option Cause
  | .ok _ => none
  | .error error => some error.fault.cause

theorem causeOf_map {α β : Type} (f : α → β) (result : Except ParseError α) :
    causeOf (result.map f) = causeOf result := by
  cases result <;> rfl

/-- A result or a fault, the parser that is left, and the number of requests to the lexer. -/
structure Outcome (α : Type) (p : Parser) where
  result : Except ParseError α
  left : Parser
  requests : Nat
  course : Course p (causeOf result) requests left

variable {α β : Type}

namespace Outcome

variable {p : Parser}

def ok (a : α) : Outcome α p := ⟨.ok a, p, 0, .stop p⟩

def map (f : α → β) (outcome : Outcome α p) : Outcome β p :=
  ⟨outcome.result.map f, outcome.left, outcome.requests, causeOf_map f _ ▸ outcome.course⟩

def andThen (outcome : Outcome α p)
    (f : α → (left : Parser) → left.unread ≤ p.unread → Outcome β left) : Outcome β p :=
  match outcome with
  | ⟨.ok a, left, requests, course⟩ =>
    let rest := f a left course.unread_le
    ⟨rest.result, rest.left, requests + rest.requests, course.append rest.course⟩
  | ⟨.error error, left, requests, course⟩ => ⟨.error error, left, requests, course⟩

end Outcome

def fail (p : Parser) (cause : Cause) (h : cause.isOfLexer = false) : Outcome α p :=
  ⟨.error ⟨p.lexer.input, ⟨cause, p.matched.position⟩⟩, p, 0, .fail p h⟩

/-- Requests the token after the token ahead. -/
def request (p : Parser) (onItem : (next : Item) → p.lexer.next.1.item? = .ok next → α)
    (onQuote : (quote : Nat) → p.lexer.next.1.item? = .error quote → α) : α :=
  match h : p.lexer.next.1.item? with
  | .ok next => onItem next h
  | .error quote => onQuote quote h

theorem request_of_item {p : Parser} {next : Item}
    (onItem : (next : Item) → p.lexer.next.1.item? = .ok next → α)
    (onQuote : (quote : Nat) → p.lexer.next.1.item? = .error quote → α)
    (h : p.lexer.next.1.item? = .ok next) : p.request onItem onQuote = onItem next h := by
  unfold request
  split
  · next other hother =>
    obtain rfl := Except.ok.inj (hother.symm.trans h)
    rfl
  · next quote hquote => simp [h] at hquote

theorem request_of_unclosed {p : Parser} {quote : Nat}
    (onItem : (next : Item) → p.lexer.next.1.item? = .ok next → α)
    (onQuote : (quote : Nat) → p.lexer.next.1.item? = .error quote → α)
    (h : p.lexer.next.1.item? = .error quote) : p.request onItem onQuote = onQuote quote h := by
  unfold request
  split
  · next other hother => simp [h] at hother
  · next other hother =>
    obtain rfl := Except.error.inj (hother.symm.trans h)
    rfl

def unclosed (p : Parser) (quote : Nat) (h : p.lexer.next.1.item? = .error quote) : Outcome α p :=
  ⟨.error ⟨p.lexer.input, ⟨.unclosedString, quote⟩⟩, p.stall, 1, .stall h⟩

def take (p : Parser) {symbol : Symbol} (hp : p.next.symbol = some symbol)
    (f : (left : Parser) → left.unread < p.unread → Outcome α left) : Outcome α p :=
  p.request
    (fun _ h =>
      let rest := f (p.shift h) (unread_shift_lt hp h)
      ⟨rest.result, rest.left, rest.requests + 1, .take hp h rest.course⟩)
    p.unclosed

/-- Takes the token ahead, or the end, and fails at it. -/
def reject (p : Parser) (cause : Cause) (hcause : cause.isOfLexer = false) : Outcome α p :=
  p.request
    (fun _ h =>
      ⟨.error ⟨p.lexer.input, ⟨cause, (p.shift h).matched.position⟩⟩, p.shift h, 1,
        .reject h hcause⟩)
    p.unclosed

def nested (p : Parser)
    (production : (inner : Parser) → inner.unread = p.unread → Outcome α inner) : Outcome α p :=
  if p.depth < nestingLimit then
    let inner := production p.enter rfl
    ⟨inner.result, inner.left.leave, inner.requests, .nest inner.course⟩
  else p.fail .nestingTooDeep rfl

end Parser

end JsonShorthand
