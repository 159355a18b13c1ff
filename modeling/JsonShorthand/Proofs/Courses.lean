import JsonShorthand.Parser

namespace JsonShorthand

theorem scan_of_item?_error {position quote : Nat} {cs : List Char}
    (h : (scan position cs).1.item? = .error quote) : (scan position cs).2.2 = [] := by
  fun_induction scan position cs with
  | case1 position | case3 position c cs hc hscan => rfl
  | case2 position cs ih => exact ih h
  | case4 position c cs hc lexeme hscan => contradiction

namespace Parser

section Courses

variable {p left : Parser} {cause : Option Cause} {requests : Nat}

/-- Every level that was opened is closed again, also after a fault. -/
theorem Course.depth_eq (h : Course p cause requests left) : left.depth = p.depth := by
  induction h with
  | stop p | stall h | reject h hcause | fail p hcause => rfl
  | take hp h _ ih => exact ih
  | append _ _ ihfirst ihsecond => exact ihsecond.trans ihfirst
  | nest _ ih => exact congrArg (· - 1) ih

theorem Course.lexer_eq (h : Course p cause requests left) :
    left.lexer = p.lexer.skip requests := by
  induction h with
  | stop p | stall h | reject h hcause | fail p hcause => rfl
  | take hp h _ ih => exact ih
  | append _ _ ihfirst ihsecond => rw [Lexer.skip_add, ← ihfirst, ihsecond]
  | nest _ ih => exact ih

theorem Course.input_eq (h : Course p cause requests left) :
    left.lexer.input = p.lexer.input := by
  rw [h.lexer_eq, Lexer.input_skip]

/-- A request brings a token, but for the last one before a fault. -/
theorem Course.requests_add_unread_le (h : Course p cause requests left) :
    requests + left.unread ≤ p.unread + (if cause = none then 0 else 1) := by
  induction h with
  | stop p => exact Nat.le_of_eq (Nat.zero_add _)
  | take hp h _ ih =>
    have hlt := unread_shift_lt hp h
    omega
  | stall h =>
    have heq := unread_stall h
    simp only [reduceCtorEq, if_false]
    omega
  | reject h hcause =>
    have hle := unread_shift_le h
    simp only [reduceCtorEq, if_false]
    omega
  | fail p hcause =>
    simp only [reduceCtorEq, if_false]
    omega
  | append _ _ ihfirst ihsecond =>
    simp only [if_true] at ihfirst
    omega
  | nest _ ih => exact ih

theorem Course.ahead_ne_nil (h : Course p cause requests left) (hleft : left.lexer.ahead ≠ []) :
    p.lexer.ahead ≠ [] := by
  intro hend
  rw [h.lexer_eq, Lexer.skip_of_end hend] at hleft
  exact hleft hend

theorem ahead_of_item?_error {quote : Nat} (h : p.lexer.next.1.item? = .error quote) :
    p.lexer.ahead ≠ [] ∧ p.stall.lexer.ahead = [] := by
  apply And.intro
  · intro hend
    rw [Lexer.next_of_end hend] at h
    contradiction
  · exact scan_of_item?_error h

/-- An unclosed quote is told when it is met, and then the lexer is at the end. -/
theorem Course.ahead_of_unclosedString (h : Course p cause requests left)
    (hcause : cause = some .unclosedString) : p.lexer.ahead ≠ [] ∧ left.lexer.ahead = [] := by
  induction h with
  | stop p => contradiction
  | take hp h hleft ih =>
    refine ⟨?_, (ih hcause).2⟩
    exact (Course.take hp h (.stop _)).ahead_ne_nil (ih hcause).1
  | stall h => exact ahead_of_item?_error h
  | reject h hother | fail p hother =>
    obtain rfl := Option.some.inj hcause
    contradiction
  | append hfirst _ _ ih => exact ⟨hfirst.ahead_ne_nil (ih hcause).1, (ih hcause).2⟩
  | nest _ ih => exact ih hcause

end Courses

section Requests

variable {p : Parser} {symbol : Symbol} {next : Item} {quote : Nat} {α : Type}

theorem take_of_item (hp : p.next.symbol = some symbol)
    (f : (left : Parser) → left.unread < p.unread → Outcome α left)
    (h : p.lexer.next.1.item? = .ok next) :
    p.take hp f =
      ⟨(f (p.shift h) (unread_shift_lt hp h)).result, (f (p.shift h) (unread_shift_lt hp h)).left,
        (f (p.shift h) (unread_shift_lt hp h)).requests + 1,
        .take hp h (f (p.shift h) (unread_shift_lt hp h)).course⟩ :=
  request_of_item _ _ h

theorem reject_of_item {cause : Cause} (hcause : cause.isOfLexer = false)
    (h : p.lexer.next.1.item? = .ok next) :
    (p.reject cause hcause : Outcome α p) =
      ⟨.error ⟨p.lexer.input, ⟨cause, p.next.position⟩⟩, p.shift h, 1, .reject h hcause⟩ :=
  request_of_item _ _ h

theorem finish_of_item (h : p.lexer.next.1.item? = .ok next) (reading : Reading) (requests : Nat) :
    p.finish reading requests =
      ⟨if p.next.symbol = none then .ok reading
        else .error ⟨p.lexer.input, ⟨.unexpectedInput, p.next.position⟩⟩,
        p.shift h, requests + 1⟩ :=
  request_of_item _ _ h

theorem take_of_unclosed (hp : p.next.symbol = some symbol)
    (f : (left : Parser) → left.unread < p.unread → Outcome α left)
    (h : p.lexer.next.1.item? = .error quote) : p.take hp f = p.unclosed quote h :=
  request_of_unclosed _ _ h

theorem reject_of_unclosed {cause : Cause} (hcause : cause.isOfLexer = false)
    (h : p.lexer.next.1.item? = .error quote) :
    (p.reject cause hcause : Outcome α p) = p.unclosed quote h :=
  request_of_unclosed _ _ h

theorem finish_of_unclosed (h : p.lexer.next.1.item? = .error quote) (reading : Reading)
    (requests : Nat) :
    p.finish reading requests =
      ⟨.error ⟨p.lexer.input, ⟨.unclosedString, quote⟩⟩, p.stall, requests + 1⟩ :=
  request_of_unclosed _ _ h

theorem item?_of_end (hend : p.next.symbol = none) :
    p.lexer.next.1.item? = .ok ⟨none, p.lexer.position⟩ := by
  rw [Lexer.next_of_end (p.atEnd hend).1]
  rfl

end Requests

end Parser

end JsonShorthand
