import JsonShorthand.Token
import JsonShorthand.Token.Quoted

namespace JsonShorthand

inductive TokenStream where
  | finished (size : Nat)
  /-- A quote at the offset `quote` that nothing closes in a text of `size` bytes. -/
  | unclosed (quote size : Nat)
  | cons (token : Token) (rest : TokenStream)
  deriving DecidableEq

/-- What one request for a token brings. -/
inductive Pull where
  | token (token : Token)
  | unclosed (quote : Nat)
  | endOfInput (position : Nat)
  deriving DecidableEq

namespace TokenStream

/-- Takes the next token. An unclosed quote swallows the rest of the text, and after the end there
is only the end. -/
def pull : TokenStream → Pull × TokenStream
  | finished size => (.endOfInput size, finished size)
  | unclosed quote size => (.unclosed quote, finished size)
  | cons token rest => (.token token, rest)

def pulls : Nat → TokenStream → List Pull × TokenStream
  | 0, stream => ([], stream)
  | count + 1, stream =>
    let (first, rest) := stream.pull
    let (others, left) := pulls count rest
    (first :: others, left)

def toList : TokenStream → List Pull
  | finished _ => []
  | unclosed quote _ => [.unclosed quote]
  | cons token rest => .token token :: rest.toList

def head? : TokenStream → Option Symbol
  | cons token _ => some token.symbol
  | _ => none

def length : TokenStream → Nat
  | cons _ rest => rest.length + 1
  | _ => 0

theorem eq_unclosed_or (stream : TokenStream) :
    (∃ quote size, stream = unclosed quote size) ∨ ∀ quote size, stream ≠ unclosed quote size := by
  cases stream with
  | unclosed quote size => exact .inl ⟨quote, size, rfl⟩
  | finished size | cons token rest => exact .inr nofun

end TokenStream

def byteLength (cs : List Char) : Nat := cs.foldr (fun c size => c.utf8Size + size) 0

theorem byteLength_append (cs ds : List Char) :
    byteLength (cs ++ ds) = byteLength cs + byteLength ds := by
  induction cs with
  | nil => simp [byteLength]
  | cons c cs ih =>
    simp only [byteLength, List.cons_append, List.foldr_cons] at ih ⊢
    omega

theorem byteLength_toList (text : String) : byteLength text.toList = text.utf8ByteSize := by
  induction text using String.push_induction with
  | empty => rfl
  | push text c ih =>
    rw [String.toList_push, byteLength_append, ih, String.utf8ByteSize_push]
    rfl

def isDelimiter (c : Char) : Bool :=
  c = ' ' || c = '\t' || c = '\n' || c = '{' || c = '}' || c = '[' || c = ']' || c = '='

/-- The characters that end a bare literal, of which the dot parts the segments of a path. -/
def isBareDelimiter (c : Char) : Bool := isDelimiter c || c = '.'

/-- A symbol as it is written: the characters `source`, of which `lead` stand before its text, and
the characters after it. -/
structure Lexeme where
  symbol : Symbol
  lead : Nat
  source : List Char
  rest : List Char

namespace Lexeme

def ofMark (symbol : Symbol) (c : Char) (cs : List Char) : Lexeme := ⟨symbol, 0, [c], cs⟩

def introduced (symbol : String → Symbol) (c : Char) (cs : List Char) : Lexeme :=
  let body := cs.takeWhile fun d => !isDelimiter d
  ⟨symbol (.ofList body), 1, c :: body, cs.dropWhile fun d => !isDelimiter d⟩

def bare (c : Char) (cs : List Char) : Lexeme :=
  let body := c :: cs.takeWhile fun d => !isBareDelimiter d
  ⟨.literal (.ofList body), 0, body, cs.dropWhile fun d => !isBareDelimiter d⟩

def quoted? (cs : List Char) : Option Lexeme :=
  (Quoted.split? cs).map fun (body, rest) =>
    ⟨.literal (.ofList (Quoted.unescape body)), 1, '"' :: (body ++ ['"']), rest⟩

/-- The first symbol of `c :: cs`, where `c` is not a space; `none` if it is an unclosed quote. -/
def scan? (c : Char) (cs : List Char) : Option Lexeme :=
  match c with
  | '{' => some (ofMark .openBrace c cs)
  | '}' => some (ofMark .closeBrace c cs)
  | '[' => some (ofMark .openBracket c cs)
  | ']' => some (ofMark .closeBracket c cs)
  | '.' => some (ofMark .dot c cs)
  | '=' => some (ofMark .assign c cs)
  | '"' => quoted? cs
  | ':' => some (introduced .raw c cs)
  | '$' => some (introduced .var c cs)
  | _ => some (bare c cs)

theorem source_append_rest {c : Char} {cs : List Char} {lexeme : Lexeme}
    (h : scan? c cs = some lexeme) : lexeme.source ++ lexeme.rest = c :: cs := by
  unfold scan? at h
  split at h
  case h_7 =>
    obtain ⟨⟨body, rest⟩, hsplit, rfl⟩ := Option.map_eq_some_iff.1 h
    simp [Quoted.eq_append_of_split? hsplit]
  all_goals
    obtain rfl := Option.some.inj h
    simp [ofMark, introduced, bare, List.takeWhile_append_dropWhile]

theorem source_ne_nil {c : Char} {cs : List Char} {lexeme : Lexeme}
    (h : scan? c cs = some lexeme) : lexeme.source ≠ [] := by
  unfold scan? at h
  split at h
  case h_7 =>
    obtain ⟨⟨body, rest⟩, hsplit, rfl⟩ := Option.map_eq_some_iff.1 h
    simp
  all_goals
    obtain rfl := Option.some.inj h
    simp [ofMark, introduced, bare]

theorem length_rest_le {c : Char} {cs : List Char} {lexeme : Lexeme}
    (h : scan? c cs = some lexeme) : lexeme.rest.length ≤ cs.length := by
  have hlength := congrArg List.length (source_append_rest h)
  have hpos := List.length_pos_iff.2 (source_ne_nil h)
  simp only [List.length_append, List.length_cons] at hlength
  omega

end Lexeme

/-- The tokens of a text whose first character stands at the byte `offset`. Only the space separates
tokens. -/
def lexFrom (offset : Nat) (cs : List Char) : TokenStream :=
  match cs with
  | [] => .finished offset
  | c :: cs =>
    if c = ' ' then lexFrom (offset + 1) cs
    else
      match _h : Lexeme.scan? c cs with
      | none => .unclosed offset (offset + byteLength (c :: cs))
      | some lexeme =>
        .cons ⟨lexeme.symbol, offset + lexeme.lead⟩
          (lexFrom (offset + byteLength lexeme.source) lexeme.rest)
termination_by cs.length
decreasing_by
  · simp
  · have := Lexeme.length_rest_le _h
    simp only [List.length_cons]
    omega

@[simp] theorem lexFrom_nil (offset : Nat) : lexFrom offset [] = .finished offset := by
  rw [lexFrom]

@[simp] theorem lexFrom_space (offset : Nat) (cs : List Char) :
    lexFrom offset (' ' :: cs) = lexFrom (offset + 1) cs := by
  rw [lexFrom]
  simp

theorem lexFrom_of_unclosed {offset : Nat} {c : Char} {cs : List Char} (hc : c ≠ ' ')
    (h : Lexeme.scan? c cs = none) :
    lexFrom offset (c :: cs) = .unclosed offset (offset + byteLength (c :: cs)) := by
  rw [lexFrom]
  simp only [hc, if_false]
  split <;> simp_all

theorem lexFrom_of_scan? {offset : Nat} {c : Char} {cs : List Char} {lexeme : Lexeme} (hc : c ≠ ' ')
    (h : Lexeme.scan? c cs = some lexeme) :
    lexFrom offset (c :: cs) =
      .cons ⟨lexeme.symbol, offset + lexeme.lead⟩
        (lexFrom (offset + byteLength lexeme.source) lexeme.rest) := by
  rw [lexFrom]
  simp only [hc, if_false]
  split <;> simp_all

def lex (input : String) : TokenStream := lexFrom 0 input.toList

end JsonShorthand
