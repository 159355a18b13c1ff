import JsonShorthand.Token.Stream

namespace JsonShorthand

/-- The first token of some characters, where it ends, and the characters after it. -/
def scan (position : Nat) : List Char → Pull × Nat × List Char
  | [] => (.endOfInput position, position, [])
  | c :: cs =>
    if c = ' ' then scan (position + 1) cs
    else
      match Lexeme.scan? c cs with
      | none => (.unclosed position, position + byteLength (c :: cs), [])
      | some lexeme =>
        (.token ⟨lexeme.symbol, position + lexeme.lead⟩, position + byteLength lexeme.source,
          lexeme.rest)

theorem scan_fits (position : Nat) (cs : List Char) :
    (scan position cs).2.1 + byteLength (scan position cs).2.2 = position + byteLength cs := by
  fun_induction scan position cs with
  | case1 position => rfl
  | case2 position cs ih =>
    rw [ih]
    exact Nat.add_assoc position 1 (byteLength cs)
  | case3 position c cs hc hscan => rfl
  | case4 position c cs hc lexeme hscan =>
    rw [Nat.add_assoc, ← byteLength_append, Lexeme.source_append_rest hscan]

/-- A scan takes the first of the tokens that are still to come. -/
theorem pull_lexFrom (position : Nat) (cs : List Char) :
    (lexFrom position cs).pull =
      ((scan position cs).1, lexFrom (scan position cs).2.1 (scan position cs).2.2) := by
  fun_induction scan position cs with
  | case1 position => simp [TokenStream.pull]
  | case2 position cs ih => rw [lexFrom_space, ih]
  | case3 position c cs hc hscan => simp [lexFrom_of_unclosed hc hscan, TokenStream.pull]
  | case4 position c cs hc lexeme hscan => simp [lexFrom_of_scan? hc hscan, TokenStream.pull]

structure Item where
  symbol : Option Symbol
  position : Nat
  deriving DecidableEq

def Pull.item? : Pull → Except Nat Item
  | .token first => .ok ⟨some first.symbol, first.position⟩
  | .unclosed quote => .error quote
  | .endOfInput position => .ok ⟨none, position⟩

/-- The tokens that begin with an item. -/
def Item.before (item : Item) (rest : TokenStream) : TokenStream :=
  match item.symbol with
  | some symbol => .cons ⟨symbol, item.position⟩ rest
  | none => .finished item.position

theorem scan_of_item?_end {position : Nat} {cs : List Char} {item : Item}
    (h : (scan position cs).1.item? = .ok item) (hend : item.symbol = none) :
    (scan position cs).2.2 = [] ∧ item.position = (scan position cs).2.1 := by
  fun_induction scan position cs with
  | case1 position =>
    obtain rfl := Except.ok.inj h
    exact ⟨rfl, rfl⟩
  | case2 position cs ih => exact ih h
  | case3 position c cs hc hscan => contradiction
  | case4 position c cs hc lexeme hscan =>
    obtain rfl := Except.ok.inj h
    contradiction

structure Lexer where
  input : String
  position : Nat
  ahead : List Char
  fits : position + byteLength ahead = input.utf8ByteSize

namespace Lexer

def ofText (input : String) : Lexer :=
  ⟨input, 0, input.toList, by rw [byteLength_toList, Nat.zero_add]⟩

def next (lexer : Lexer) : Pull × Lexer :=
  let scanned := scan lexer.position lexer.ahead
  (scanned.1, ⟨lexer.input, scanned.2.1, scanned.2.2, (scan_fits _ _).trans lexer.fits⟩)

def skip (lexer : Lexer) : Nat → Lexer
  | 0 => lexer
  | count + 1 => lexer.next.2.skip count

/-- The tokens that are still to come. -/
def stream (lexer : Lexer) : TokenStream := lexFrom lexer.position lexer.ahead

theorem pull_stream (lexer : Lexer) :
    lexer.stream.pull = (lexer.next.1, lexer.next.2.stream) := pull_lexFrom _ _

theorem stream_of_item {lexer : Lexer} {item : Item} (h : lexer.next.1.item? = .ok item) :
    lexer.stream = item.before lexer.next.2.stream := by
  have hpull := lexer.pull_stream
  cases hstream : lexer.stream with
  | finished size | cons token rest =>
    rw [hstream] at hpull
    obtain ⟨hnext, hrest⟩ := Prod.mk.inj hpull
    rw [← hnext] at h
    obtain rfl := Except.ok.inj h
    rw [← hrest]
    rfl
  | unclosed quote size =>
    rw [hstream] at hpull
    rw [← (Prod.mk.inj hpull).1] at h
    contradiction

theorem stream_of_unclosed {lexer : Lexer} {quote : Nat}
    (h : lexer.next.1.item? = .error quote) :
    ∃ size, lexer.stream = .unclosed quote size ∧ lexer.next.2.stream = .finished size := by
  have hpull := lexer.pull_stream
  cases hstream : lexer.stream with
  | unclosed other size =>
    rw [hstream] at hpull
    obtain ⟨hnext, hrest⟩ := Prod.mk.inj hpull
    rw [← hnext] at h
    obtain rfl := Except.error.inj h
    exact ⟨size, rfl, hrest.symm⟩
  | finished size | cons token rest =>
    rw [hstream] at hpull
    rw [← (Prod.mk.inj hpull).1] at h
    contradiction

@[simp] theorem input_next (lexer : Lexer) : lexer.next.2.input = lexer.input := rfl

@[simp] theorem input_skip (lexer : Lexer) (count : Nat) :
    (lexer.skip count).input = lexer.input := by
  induction count generalizing lexer with
  | zero => rfl
  | succ count ih => exact ih lexer.next.2

theorem next_of_end {lexer : Lexer} (h : lexer.ahead = []) :
    lexer.next = (.endOfInput lexer.position, lexer) := by
  obtain ⟨input, position, ahead, fits⟩ := lexer
  subst h
  rfl

theorem skip_of_end {lexer : Lexer} (h : lexer.ahead = []) (count : Nat) :
    lexer.skip count = lexer := by
  induction count with
  | zero => rfl
  | succ count ih => rw [skip, next_of_end h, ih]

theorem skip_add (lexer : Lexer) (first second : Nat) :
    lexer.skip (first + second) = (lexer.skip first).skip second := by
  induction first generalizing lexer with
  | zero => rw [Nat.zero_add]; rfl
  | succ first ih => rw [Nat.succ_add]; exact ih lexer.next.2

end Lexer

end JsonShorthand
