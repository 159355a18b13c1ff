import JsonShorthand.Value.Json
import JsonShorthand.Value.Raw

namespace JsonShorthand.Json

inductive Token where
  | openBrace
  | closeBrace
  | openBracket
  | closeBracket
  | colon
  | comma
  | string (text : String)
  | scalar (v : Value)

def hexDigit? (c : Char) : Option Nat :=
  if c.isDigit then some (c.toNat - '0'.toNat)
  else if 'a' ≤ c ∧ c ≤ 'f' then some (c.toNat - 'a'.toNat + 10)
  else if 'A' ≤ c ∧ c ≤ 'F' then some (c.toNat - 'A'.toNat + 10)
  else none

def codeUnit? : List Char → Option (Nat × List Char)
  | a :: b :: c :: d :: rest => do
    let a ← hexDigit? a
    let b ← hexDigit? b
    let c ← hexDigit? c
    let d ← hexDigit? d
    some (((a * 16 + b) * 16 + c) * 16 + d, rest)
  | _ => none

def lowUnit? : List Char → Option (Nat × List Char)
  | '\\' :: 'u' :: cs => (codeUnit? cs).filter fun (unit, _) => 0xDC00 ≤ unit ∧ unit < 0xE000
  | _ => none

/-- A character in one unit or in two, and what follows it. -/
def codePoint? (cs : List Char) : Option (Char × List Char) := do
  let (unit, rest) ← codeUnit? cs
  if unit < 0xD800 ∨ 0xE000 ≤ unit then some (.ofNat unit, rest)
  else if unit < 0xDC00 then
    let (low, rest) ← lowUnit? rest
    some (.ofNat (0x10000 + (unit - 0xD800) * 0x400 + (low - 0xDC00)), rest)
  else none

example : codePoint? "d83d\\ude00!".toList = some ('😀', ['!']) := by decide

def unescaped? : Char → Option Char
  | '"' => some '"'
  | '\\' => some '\\'
  | '/' => some '/'
  | 'b' => some '\x08'
  | 'f' => some '\x0c'
  | 'n' => some '\n'
  | 'r' => some '\r'
  | 't' => some '\t'
  | _ => none

/-- The first character that a string stands for, and what follows it. Control characters have to be
escaped. -/
def character? : List Char → Option (Char × List Char)
  | '\\' :: 'u' :: cs => codePoint? cs
  | '\\' :: c :: cs => (unescaped? c).map (·, cs)
  | c :: cs => if c = '\\' ∨ c = '"' ∨ c.toNat < 0x20 then none else some (c, cs)
  | [] => none

theorem length_lt_of_codeUnit? {cs rest : List Char} {unit : Nat}
    (h : codeUnit? cs = some (unit, rest)) : rest.length < cs.length := by
  unfold codeUnit? at h
  split at h
  · simp only [Option.bind_eq_bind, Option.bind_eq_some_iff, Option.some.injEq, Prod.mk.injEq] at h
    obtain ⟨_, _, _, _, _, _, _, _, _, rfl⟩ := h
    simp only [List.length_cons]
    omega
  · contradiction

theorem length_lt_of_lowUnit? {cs rest : List Char} {unit : Nat}
    (h : lowUnit? cs = some (unit, rest)) : rest.length < cs.length := by
  unfold lowUnit? at h
  split at h
  · have hlt := length_lt_of_codeUnit? (Option.filter_eq_some_iff.1 h).1
    simp only [List.length_cons]
    omega
  · contradiction

theorem length_lt_of_codePoint? {cs rest : List Char} {c : Char}
    (h : codePoint? cs = some (c, rest)) : rest.length < cs.length := by
  obtain ⟨⟨unit, left⟩, hunit, h⟩ := Option.bind_eq_some_iff.1 h
  have hleft := length_lt_of_codeUnit? hunit
  dsimp only at h
  split at h
  · obtain ⟨-, rfl⟩ : _ ∧ left = rest := by simpa using h
    exact hleft
  · split at h
    · obtain ⟨⟨low, left'⟩, hlow, h⟩ := Option.bind_eq_some_iff.1 h
      obtain ⟨-, rfl⟩ : _ ∧ left' = rest := by simpa using h
      exact Nat.lt_trans (length_lt_of_lowUnit? hlow) hleft
    · contradiction

theorem length_lt_of_character? {cs rest : List Char} {c : Char}
    (h : character? cs = some (c, rest)) : rest.length < cs.length := by
  unfold character? at h
  split at h
  · have hlt := length_lt_of_codePoint? h
    simp only [List.length_cons]
    omega
  · obtain ⟨c', -, heq⟩ := Option.map_eq_some_iff.1 h
    obtain ⟨-, rfl⟩ := Prod.mk.inj heq
    simp only [List.length_cons]
    omega
  · split at h
    · contradiction
    · obtain ⟨-, rfl⟩ := Prod.mk.inj (Option.some.inj h)
      exact Nat.lt_succ_self _
  · contradiction

def unquote? (cs : List Char) : Option (List Char × List Char) :=
  if cs.head? = some '"' then some ([], cs.drop 1)
  else
    match _h : character? cs with
    | none => none
    | some (c, rest) => (unquote? rest).map fun (text, left) => (c :: text, left)
termination_by cs.length
decreasing_by exact length_lt_of_character? _h

def isWhole (digits : List Char) : Bool :=
  digits = ['0'] || (digits ≠ [] && digits.head? ≠ some '0')

/-- A number without a sign: digits, and then a fraction and an exponent or not. -/
def isUnsigned (cs : List Char) : Bool :=
  let point := cs.dropWhile Char.isDigit
  let (fraction, rest) := Decimal.splitFraction point
  isWhole (cs.takeWhile Char.isDigit) && (point.head? ≠ some '.' || fraction ≠ []) &&
    (Decimal.exponent? rest).isSome

def isNumber : List Char → Bool
  | '-' :: cs => isUnsigned cs
  | cs => isUnsigned cs

def isFloatMark (c : Char) : Bool := c = '.' || c = 'e' || c = 'E'

def number? (cs : List Char) : Option Value :=
  if !isNumber cs then none
  else if cs.any isFloatMark then ((Binary64.ofText? cs).filter Binary64.isFinite).map .float
  else ((integer? cs).bind int64?).map .integer

def scalar? (cs : List Char) : Option Value :=
  if cs = "null".toList then some .null
  else if cs = "true".toList then some (.boolean true)
  else if cs = "false".toList then some (.boolean false)
  else number? cs

def isBlank (c : Char) : Bool := c = ' ' || c = '\t' || c = '\n' || c = '\r'

/-- What numbers and words are made of. -/
def isScalarChar (c : Char) : Bool := c.isAlphanum || c = '+' || c = '-' || c = '.'

def scan? (c : Char) (cs : List Char) : Option (Token × List Char) :=
  match c with
  | '{' => some (.openBrace, cs)
  | '}' => some (.closeBrace, cs)
  | '[' => some (.openBracket, cs)
  | ']' => some (.closeBracket, cs)
  | ':' => some (.colon, cs)
  | ',' => some (.comma, cs)
  | '"' => (unquote? cs).map fun (text, rest) => (.string (.ofList text), rest)
  | _ =>
    (scalar? (c :: cs.takeWhile isScalarChar)).map fun v => (.scalar v, cs.dropWhile isScalarChar)

theorem length_le_of_unquote? {cs text rest : List Char} (h : unquote? cs = some (text, rest)) :
    rest.length ≤ cs.length := by
  fun_induction unquote? cs generalizing text rest with
  | case1 cs hquote =>
    obtain ⟨-, rfl⟩ := Prod.mk.inj (Option.some.inj h)
    simp
  | case2 cs hquote hnone => simp at h
  | case3 cs hquote c left hchar ih =>
    obtain ⟨⟨text', rest'⟩, hrest, heq⟩ := Option.map_eq_some_iff.1 h
    obtain ⟨-, rfl⟩ := Prod.mk.inj heq
    have hlt := length_lt_of_character? hchar
    have hle := ih hrest
    omega

theorem length_le_of_scan? {c : Char} {cs rest : List Char} {token : Token}
    (h : scan? c cs = some (token, rest)) : rest.length ≤ cs.length := by
  unfold scan? at h
  split at h
  case h_7 =>
    obtain ⟨⟨text, left⟩, hunquote, heq⟩ := Option.map_eq_some_iff.1 h
    obtain ⟨-, rfl⟩ := Prod.mk.inj heq
    exact length_le_of_unquote? hunquote
  case h_8 =>
    obtain ⟨v, -, heq⟩ := Option.map_eq_some_iff.1 h
    obtain ⟨-, rfl⟩ := Prod.mk.inj heq
    exact (List.dropWhile_sublist _).length_le
  all_goals
    obtain ⟨-, rfl⟩ := Prod.mk.inj (Option.some.inj h)
    exact Nat.le_refl _

def tokens? (cs : List Char) : Option (List Token) :=
  match cs with
  | [] => some []
  | c :: cs =>
    if isBlank c then tokens? cs
    else
      match _h : scan? c cs with
      | none => none
      | some (token, rest) => (tokens? rest).map (token :: ·)
termination_by cs.length
decreasing_by
  · simp
  · have := length_le_of_scan? _h
    simp only [List.length_cons]
    omega

@[simp] theorem tokens?_nil : tokens? [] = some [] := by
  rw [tokens?]

theorem tokens?_of_scan? {c : Char} {cs rest : List Char} {token : Token} (hc : ¬ isBlank c)
    (h : scan? c cs = some (token, rest)) :
    tokens? (c :: cs) = (tokens? rest).map (token :: ·) := by
  rw [tokens?, if_neg hc]
  split <;> simp_all

inductive Frame where
  | element (earlier : List Value)
  | member (fields : Fields Value none) (name : String)

/-- Where the machine stands, inside containers of which the innermost comes first. -/
inductive State where
  | value (frames : List Frame)
  | name (fields : Fields Value none) (frames : List Frame)
  | colon (fields : Fields Value none) (name : String) (frames : List Frame)
  | done (v : Value) (frames : List Frame)

/-- A container may be closed after its bracket and after each item, but not after a comma. -/
def State.step : State → Token → Option State
  | value frames, .scalar v => some (done v frames)
  | value frames, .string text => some (done (.string text) frames)
  | value frames, .openBracket => some (value (.element [] :: frames))
  | value frames, .openBrace => some (name .nil frames)
  | value (.element [] :: frames), .closeBracket => some (done (.array []) frames)
  | name fields frames, .string text => some (colon fields text frames)
  | name .nil frames, .closeBrace => some (done (.object .nil) frames)
  | colon fields key frames, .colon => some (value (.member fields key :: frames))
  | done v (.element earlier :: frames), .comma => some (value (.element (v :: earlier) :: frames))
  | done v (.element earlier :: frames), .closeBracket =>
    some (done (.array (v :: earlier).reverse) frames)
  | done v (.member fields key :: frames), .comma => some (name (fields.insert key v) frames)
  | done v (.member fields key :: frames), .closeBrace =>
    some (done (.object (fields.insert key v)) frames)
  | _, _ => none

def State.finish : State → Option Value
  | done v [] => some v
  | _ => none

end JsonShorthand.Json

namespace JsonShorthand

/-- The value of a JSON text. A number is an integer unless it has a point or an exponent, and the
last of several fields under one name counts. -/
def readJson (text : String) : Option Value := do
  let tokens ← Json.tokens? text.toList
  let state ← tokens.foldlM Json.State.step (.value [])
  state.finish

example : readJson "[1, [null, true ]]" =
    some (.array [.integer 1, .array [.null, .boolean true]]) := by cbv

example : readJson "[1,]" = none := by cbv

end JsonShorthand
