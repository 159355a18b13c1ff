import Mathlib
import JsonShorthand.Proofs.Descent

namespace JsonShorthand.Parser

section Requests

variable {p q : Parser} {symbol : Symbol} {next : Item} {quote : Nat} {α β : Type}

/-- Two parsers that stand at the same place, whatever was before. -/
structure Agree (p q : Parser) : Prop where
  lexer_eq : p.lexer = q.lexer
  next_eq : p.next = q.next

theorem Agree.refl (p : Parser) : Agree p p := ⟨rfl, rfl⟩

theorem take_map (g : α → β) (hp : p.next.symbol = some symbol)
    (f : (left : Parser) → left.unread < p.unread → Outcome α left) :
    (p.take hp f).map g = p.take hp fun left h => (f left h).map g := by
  cases h : p.lexer.next.1.item? with
  | ok next => rw [take_of_item hp _ h, take_of_item hp _ h]; rfl
  | error quote => rw [take_of_unclosed hp _ h, take_of_unclosed hp _ h]; rfl

theorem reject_map (g : α → β) (cause : Cause) (hcause : cause.isOfLexer = false) :
    (p.reject cause hcause : Outcome α p).map g = p.reject cause hcause := by
  cases h : p.lexer.next.1.item? with
  | ok next => rw [reject_of_item hcause h, reject_of_item hcause h]; rfl
  | error quote => rw [reject_of_unclosed hcause h, reject_of_unclosed hcause h]; rfl

/-- Two outcomes that begin in the same way: with the token ahead, if not at once with a result. -/
inductive Begin (p q : Parser) : Outcome α p → Outcome α q → Prop where
  | stop (a : α) : Begin p q (.ok a) (.ok a)
  | take {symbol : Symbol} (hp : p.next.symbol = some symbol) (hq : q.next.symbol = some symbol)
      {f : (left : Parser) → left.unread < p.unread → Outcome α left}
      {g : (left : Parser) → left.unread < q.unread → Outcome α left}
      (hfg : ∀ left hleft hleft', f left hleft = g left hleft') :
      Begin p q (p.take hp f) (q.take hq g)
  | reject (hp : p.next.symbol = none) (cause : Cause) (hcause : cause.isOfLexer = false) :
      Begin p q (p.reject cause hcause) (q.reject cause hcause)

theorem Begin.map {outcome : Outcome α p} {other : Outcome α q} (h : Begin p q outcome other)
    (g : α → β) : Begin p q (outcome.map g) (other.map g) := by
  cases h with
  | stop a => exact .stop (g a)
  | take hp hq hfg =>
    rw [take_map, take_map]
    exact .take hp hq fun left hleft hleft' => by rw [hfg left hleft hleft']
  | reject hp cause hcause =>
    rw [reject_map, reject_map]
    exact .reject hp cause hcause

namespace Agree

theorem begin_fields (h : Agree p q) (present : Fields Generator none) :
    Begin p q (fields present p) (fields present q) := by
  by_cases hliteral : ∃ name, p.next.symbol = some (.literal name)
  · obtain ⟨name, hp⟩ := hliteral
    have hq : q.next.symbol = some (.literal name) := h.next_eq ▸ hp
    rw [fields_of_literal present hp, fields_of_literal present hq]
    exact .take hp hq fun _ _ _ => rfl
  · have hp : ∀ name, p.next.symbol ≠ some (.literal name) :=
      fun name heq => hliteral ⟨name, heq⟩
    have hq : ∀ name, q.next.symbol ≠ some (.literal name) := h.next_eq ▸ hp
    rw [fields_of_other present hp, fields_of_other present hq]
    exact .stop present

theorem begin_groups (h : Agree p q) (earlier : List Generator) :
    Begin p q (groups earlier p) (groups earlier q) := by
  by_cases hp : p.next.symbol = some .openBrace
  · have hq : q.next.symbol = some .openBrace := h.next_eq ▸ hp
    rw [groups_of_openBrace earlier hp, groups_of_openBrace earlier hq]
    exact .take hp hq fun _ _ _ => rfl
  · by_cases hp' : p.next.symbol = some .openBracket
    · have hq : q.next.symbol = some .openBracket := h.next_eq ▸ hp'
      rw [groups_of_openBracket earlier hp', groups_of_openBracket earlier hq]
      exact .take hp' hq fun _ _ _ => rfl
    · have hq : q.next.symbol ≠ some .openBrace := h.next_eq ▸ hp
      have hq' : q.next.symbol ≠ some .openBracket := h.next_eq ▸ hp'
      rw [groups_of_other earlier hp hp', groups_of_other earlier hq hq']
      exact .stop _

theorem begin_read (h : Agree p q) (call : Call) : Begin p q (call.read p) (call.read q) := by
  cases call with
  | expressions =>
    refine Begin.map ?_ Reading.forest
    rw [start, start, ← h.next_eq]
    by_cases hgroups : p.next.symbol = some .openBrace ∨ p.next.symbol = some .openBracket
    · rw [if_pos hgroups, if_pos hgroups]
      exact h.begin_groups []
    · rw [if_neg hgroups, if_neg hgroups]
      exact (h.begin_fields .nil).map _
  | scalar =>
    refine Begin.map ?_ Reading.value
    cases hp : p.next.symbol with
    | none =>
      rw [scalar_of_end hp, scalar_of_end (h.next_eq ▸ hp)]
      exact .reject hp _ _
    | some symbol =>
      have hq : q.next.symbol = some symbol := h.next_eq ▸ hp
      rw [scalar_of_symbol hp, scalar_of_symbol hq]
      exact .take hp hq fun _ _ _ => rfl

end Agree

theorem Begin.close_of_unclosed {outcome : Outcome Reading p} {other : Outcome Reading q}
    (hbegin : Begin p q outcome other) (h : p.lexer.next.1.item? = .error quote) :
    outcome.close = ⟨.error ⟨p.lexer.input, ⟨.unclosedString, quote⟩⟩, p.stall, 1⟩ := by
  cases hbegin with
  | stop a => exact finish_of_unclosed h a 0
  | take hp hq hfg => rw [take_of_unclosed hp _ h]; rfl
  | reject hp cause hcause => rw [reject_of_unclosed hcause h]; rfl

theorem Agree.shift_eq (hagree : Agree p q) (hdepth : p.depth = q.depth)
    (hp : p.lexer.next.1.item? = .ok next) (hq : q.lexer.next.1.item? = .ok next) :
    p.shift hp = q.shift hq := by
  simp only [shift, hagree.lexer_eq, hagree.next_eq, hdepth]

theorem finish_add_one (p : Parser) (reading : Reading) (requests : Nat) :
    p.finish reading (requests + 1) =
      { p.finish reading requests with requests := (p.finish reading requests).requests + 1 } := by
  cases h : p.lexer.next.1.item? with
  | ok next => rw [finish_of_item h, finish_of_item h]
  | error quote => rw [finish_of_unclosed h, finish_of_unclosed h]

theorem close_take_of_item (hp : p.next.symbol = some symbol)
    (f : (left : Parser) → left.unread < p.unread → Outcome Reading left)
    (h : p.lexer.next.1.item? = .ok next) :
    (p.take hp f).close =
      { (f (p.shift h) (unread_shift_lt hp h)).close with
        requests := (f (p.shift h) (unread_shift_lt hp h)).close.requests + 1 } := by
  rw [take_of_item hp f h]
  obtain ⟨result, left, requests, course⟩ := f (p.shift h) (unread_shift_lt hp h)
  cases result with
  | ok reading => exact left.finish_add_one reading requests
  | error error => rfl

/-- After a token, what was before it does not count any more. -/
theorem Begin.close_eq {outcome : Outcome Reading p} {other : Outcome Reading q}
    (hbegin : Begin p q outcome other) (hagree : Agree p q) (hdepth : p.depth = q.depth)
    (hp : p.lexer.next.1.item? = .ok next) : outcome.close = other.close := by
  have hq : q.lexer.next.1.item? = .ok next := hagree.lexer_eq ▸ hp
  have hshift := hagree.shift_eq hdepth hp hq
  cases hbegin with
  | stop a =>
    have hclose := finish_of_item hq a 0
    rw [← hagree.next_eq, ← hagree.lexer_eq, ← hshift] at hclose
    exact (finish_of_item hp a 0).trans hclose.symm
  | @take symbol hsymbol hsymbol' f g hfg =>
    have hsame : ∀ left left' hleft hleft', left = left' →
        (f left hleft).close = (g left' hleft').close := by
      rintro left left' hleft hleft' rfl
      rw [hfg left hleft hleft']
    rw [close_take_of_item hsymbol f hp, close_take_of_item hsymbol' g hq,
      hsame _ _ _ (unread_shift_lt hsymbol' hq) hshift]
  | reject hend cause hcause =>
    have hclose : (q.reject cause hcause : Outcome Reading q).close = _ :=
      congrArg Outcome.close (reject_of_item hcause hq)
    rw [hclose, reject_of_item hcause hp]
    simp only [Outcome.close, hagree.next_eq, hagree.lexer_eq, hshift]

end Requests

section Calls

variable {p q : Parser} {symbol : Symbol} {next : Item} {quote : Nat}

/-- A call begins with a request, so an unclosed quote after the token ahead is told by any call. -/
theorem run_of_unclosed (call : Call) (h : p.lexer.next.1.item? = .error quote) :
    call.run p = ⟨.error ⟨p.lexer.input, ⟨.unclosedString, quote⟩⟩, p.stall, 1⟩ :=
  ((Agree.refl p).begin_read call).close_of_unclosed h

theorem Agree.run_eq (hagree : Agree p q) (hdepth : p.depth = q.depth) (call : Call)
    (h : p.lexer.next.1.item? = .ok next) : call.run p = call.run q :=
  (hagree.begin_read call).close_eq hagree hdepth h

theorem run_cases (call : Call) (p : Parser) :
    (∃ error left requests, call.run p = ⟨.error error, left, requests⟩ ∧
      Course p (some error.fault.cause) requests left) ∨
    ∃ reading middle requests next, ∃ h : middle.lexer.next.1.item? = .ok next,
      call.run p = ⟨.ok reading, middle.shift h, requests + 1⟩ ∧ middle.next.symbol = none ∧
        Course p none requests middle := by
  rw [Call.run]
  obtain ⟨result, middle, requests, course⟩ := call.read p
  cases result with
  | error error => exact .inl ⟨error, middle, requests, rfl, course⟩
  | ok reading =>
    rw [Outcome.close]
    cases h : middle.lexer.next.1.item? with
    | error quote =>
      exact .inl ⟨_, _, _, finish_of_unclosed h reading requests, course.append (.stall h)⟩
    | ok next =>
      by_cases hend : middle.next.symbol = none
      · refine .inr ⟨reading, middle, requests, next, h, ?_, hend, course⟩
        rw [finish_of_item h, if_pos hend]
      · refine .inl ⟨⟨middle.lexer.input, ⟨.unexpectedInput, middle.next.position⟩⟩, middle.shift h,
          requests + 1, ?_, course.append (.reject h rfl)⟩
        rw [finish_of_item h, if_neg hend]

theorem depth_run (call : Call) (p : Parser) : (call.run p).left.depth = p.depth := by
  rcases run_cases call p with ⟨error, left, requests, hrun, hcourse⟩ |
    ⟨reading, middle, requests, next, h, hrun, hend, hcourse⟩
  · rw [hrun]
    exact hcourse.depth_eq
  · rw [hrun]
    exact hcourse.depth_eq

theorem lexer_run (call : Call) (p : Parser) :
    (call.run p).left.lexer = p.lexer.skip (call.run p).requests := by
  rcases run_cases call p with ⟨error, left, requests, hrun, hcourse⟩ |
    ⟨reading, middle, requests, next, h, hrun, hend, hcourse⟩
  · rw [hrun]
    exact hcourse.lexer_eq
  · rw [hrun, Lexer.skip_add, ← hcourse.lexer_eq]
    rfl

theorem requests_run_le (call : Call) (p : Parser) :
    (call.run p).requests + (call.run p).left.unread ≤ p.unread + 1 := by
  rcases run_cases call p with ⟨error, left, requests, hrun, hcourse⟩ |
    ⟨reading, middle, requests, next, h, hrun, hend, hcourse⟩
  · rw [hrun]
    exact hcourse.requests_add_unread_le
  · have hle := hcourse.requests_add_unread_le
    have hshift := congrArg TokenStream.length (pending_shift_of_end hend h)
    rw [if_pos rfl] at hle
    rw [hrun]
    show requests + 1 + (middle.shift h).unread ≤ p.unread + 1
    rw [unread, hshift, ← unread]
    omega

theorem end_of_run_ok {call : Call} {reading : Reading} (hok : (call.run p).reading = .ok reading) :
    (call.run p).left.next.symbol = none := by
  rcases run_cases call p with ⟨error, left, requests, hrun, hcourse⟩ |
    ⟨reading, middle, requests, next, h, hrun, hend, hcourse⟩
  · rw [hrun] at hok
    contradiction
  · have hnext := Except.ok.inj (h.symm.trans (item?_of_end hend))
    rw [hrun]
    exact congrArg Item.symbol hnext

theorem close_unread_le (outcome : Outcome Reading p) : outcome.close.left.unread ≤ p.unread := by
  obtain ⟨result, middle, requests, course⟩ := outcome
  cases result with
  | error error => exact course.unread_le
  | ok reading =>
    refine Nat.le_trans ?_ course.unread_le
    cases h : middle.lexer.next.1.item? with
    | error quote =>
      rw [Outcome.close, finish_of_unclosed h]
      exact Nat.le_of_eq (unread_stall h)
    | ok next =>
      rw [Outcome.close, finish_of_item h]
      exact unread_shift_le h

theorem Begin.unread_close_lt {outcome : Outcome Reading p} {other : Outcome Reading q}
    (hbegin : Begin p q outcome other) (hp : p.next.symbol = some symbol)
    (h : p.lexer.next.1.item? = .ok next) : outcome.close.left.unread < p.unread := by
  have hlt := unread_shift_lt hp h
  cases hbegin with
  | stop a =>
    have hfinish : (Outcome.ok a : Outcome Reading p).close = _ := finish_of_item h a 0
    rw [hfinish]
    exact hlt
  | take hsymbol hsymbol' hfg =>
    rw [close_take_of_item hsymbol _ h]
    exact Nat.lt_of_le_of_lt (close_unread_le _) hlt
  | reject hend cause hcause => simp [hp] at hend

theorem unread_run_lt (call : Call) (hp : p.next.symbol = some symbol)
    (h : p.lexer.next.1.item? = .ok next) : (call.run p).left.unread < p.unread :=
  ((Agree.refl p).begin_read call).unread_close_lt hp h

theorem run_expressions_of_end (hend : p.next.symbol = none) :
    Call.expressions.run p =
      ⟨.ok (.forest [.object .nil]), p.shift (item?_of_end hend), 1⟩ := by
  have hfields : fields .nil p = .ok .nil := fields_of_other .nil (by simp [hend])
  have hstart : start p = .ok [.object .nil] := by
    rw [start, hend, if_neg (by simp), hfields]
    rfl
  have hread : Call.expressions.read p = .ok (.forest [.object .nil]) := by
    rw [Call.read, hstart]
    rfl
  rw [Call.run, hread]
  exact (finish_of_item (item?_of_end hend) _ _).trans (by rw [if_pos hend])

theorem run_scalar_of_end (hend : p.next.symbol = none) :
    Call.scalar.run p =
      ⟨.error ⟨p.lexer.input, ⟨.unexpectedEnd, p.lexer.input.utf8ByteSize⟩⟩,
        p.shift (item?_of_end hend), 1⟩ := by
  have hposition : p.next.position = p.lexer.input.utf8ByteSize := by
    rw [(p.atEnd hend).2, ← p.lexer.fits, (p.atEnd hend).1]
    rfl
  rw [Call.run, Call.read, scalar_of_end hend, reject_map, reject_of_item _ (item?_of_end hend),
    ← hposition]
  rfl

theorem end_of_run_end (call : Call) (hend : p.next.symbol = none) :
    (call.run p).left.next.symbol = none := by
  cases call with
  | expressions => rw [run_expressions_of_end hend]; rfl
  | scalar => rw [run_scalar_of_end hend]; rfl

def Answer.reportsUnclosed (answer : Answer) : Bool :=
  causeOf answer.reading = some .unclosedString

theorem ahead_of_reportsUnclosed {call : Call} (h : (call.run p).reportsUnclosed) :
    p.lexer.ahead ≠ [] ∧ (call.run p).left.lexer.ahead = [] := by
  rcases run_cases call p with ⟨error, left, requests, hrun, hcourse⟩ |
    ⟨reading, middle, requests, next, hnext, hrun, hend, hcourse⟩
  · rw [hrun] at h ⊢
    exact hcourse.ahead_of_unclosedString (of_decide_eq_true h)
  · rw [hrun] at h
    contradiction

theorem ahead_run (call : Call) (h : p.lexer.ahead = []) :
    (call.run p).left.lexer.ahead = [] := by
  rw [lexer_run, Lexer.skip_of_end h, h]

/-- What calls can use up: the tokens, and a quote that may be unclosed. -/
def remaining (p : Parser) : Nat := p.unread + (if p.lexer.ahead = [] then 0 else 1)

theorem remaining_run_lt (call : Call) (hp : p.next.symbol = some symbol) :
    (call.run p).left.remaining < p.remaining := by
  cases h : p.lexer.next.1.item? with
  | error quote =>
    obtain ⟨hahead, hstall⟩ := ahead_of_item?_error h
    rw [run_of_unclosed call h, remaining, remaining, if_neg hahead]
    rw [if_pos hstall, unread_stall h]
    omega
  | ok next =>
    have hlt := unread_run_lt call hp h
    rw [remaining, remaining]
    by_cases hahead : p.lexer.ahead = []
    · rw [if_pos hahead, if_pos (ahead_run call hahead)]
      omega
    · rw [if_neg hahead]
      split <;> omega

theorem remaining_le (p : Parser) : p.remaining ≤ p.unread + 1 := by
  rw [remaining]
  split <;> omega

theorem end_of_after_end (calls : List Call) (hend : p.next.symbol = none) :
    (p.after calls).next.symbol = none := by
  induction calls generalizing p with
  | nil => exact hend
  | cons call calls ih => exact ih (end_of_run_end call hend)

theorem end_of_after (calls : List Call) (p : Parser) (h : p.remaining ≤ calls.length) :
    (p.after calls).next.symbol = none := by
  induction calls generalizing p with
  | nil =>
    cases hp : p.next.symbol with
    | none => exact hp
    | some symbol =>
      rw [remaining, unread, pending_of_symbol hp] at h
      simp only [TokenStream.length, List.length_nil] at h
      omega
  | cons call calls ih =>
    cases hp : p.next.symbol with
    | none => exact end_of_after_end calls (end_of_run_end call hp)
    | some symbol =>
      have hlt := remaining_run_lt call hp
      rw [List.length_cons] at h
      exact ih _ (by omega)

theorem countP_reportsUnclosed_le (calls : List Call) (p : Parser) :
    (p.ask calls).countP Answer.reportsUnclosed ≤ if p.lexer.ahead = [] then 0 else 1 := by
  induction calls generalizing p with
  | nil => exact Nat.zero_le _
  | cons call calls ih =>
    have hothers := ih (call.run p).left
    rw [ask, List.countP_cons]
    by_cases hreports : (call.run p).reportsUnclosed
    · obtain ⟨hahead, hleft⟩ := ahead_of_reportsUnclosed hreports
      rw [if_pos hleft] at hothers
      rw [if_pos hreports, if_neg hahead]
      omega
    · rw [if_neg hreports]
      by_cases hahead : p.lexer.ahead = []
      · rw [if_pos (ahead_run call hahead)] at hothers
        rwa [if_pos hahead]
      · rw [if_neg hahead]
        split at hothers <;> omega

theorem input_run (call : Call) (p : Parser) : (call.run p).left.lexer.input = p.lexer.input := by
  rw [lexer_run, Lexer.input_skip]

theorem input_after (calls : List Call) (p : Parser) :
    (p.after calls).lexer.input = p.lexer.input := by
  induction calls generalizing p with
  | nil => rfl
  | cons call calls ih => rw [after, ih, input_run]

theorem depth_after (calls : List Call) (p : Parser) : (p.after calls).depth = p.depth := by
  induction calls generalizing p with
  | nil => rfl
  | cons call calls ih => rw [after, ih, depth_run]

end Calls

/-- A parser that stands where `p` stands, has taken no token and has no level open. -/
def fresh (p : Parser) : Parser := { p with matched := ⟨none, 0⟩, depth := 0 }

/-- After any calls, whatever came of them, a parser answers the next call as one that stands at the
same place and has taken no token, and leaves the same ahead of it; no level stays open. -/
theorem run_independent_of_history {input : String} {skipped : Nat} {start : Parser}
    (hstart : new? ((Lexer.ofText input).skip skipped) = .ok start) (earlier : List Call)
    (call : Call) :
    let p := start.after earlier
    p.depth = 0 ∧
      (call.run p).reading = (call.run p.fresh).reading ∧
      (call.run p).left.next = (call.run p.fresh).left.next ∧
      (call.run p).left.lexer = (call.run p.fresh).left.lexer ∧
      (call.run p).requests = (call.run p.fresh).requests ∧
      (call.run p).left.depth = 0 ∧ (call.run p.fresh).left.depth = 0 := by
  intro p
  have hdepth : p.depth = 0 := (depth_after earlier start).trans (depth_of_new? hstart)
  have hdepths : (call.run p).left.depth = 0 ∧ (call.run p.fresh).left.depth = 0 :=
    ⟨(depth_run call p).trans hdepth, depth_run call p.fresh⟩
  have hagree : Agree p p.fresh := ⟨rfl, rfl⟩
  cases h : p.lexer.next.1.item? with
  | ok next =>
    have hrun := hagree.run_eq hdepth call h
    rw [← hrun] at hdepths ⊢
    exact ⟨hdepth, rfl, rfl, rfl, rfl, hdepths⟩
  | error quote =>
    -- nothing is taken here, so the tokens taken last still differ afterwards
    have hfresh := run_of_unclosed (p := p.fresh) call h
    rw [run_of_unclosed call h, hfresh] at hdepths ⊢
    exact ⟨hdepth, rfl, rfl, rfl, rfl, hdepths⟩

/-- Expressions whose fault is inside an array, and a scalar after them. -/
theorem run_independent_of_history_unwound :
    ∃ start, new? ((Lexer.ofText "[a=[\x7d :1").skip 1) = .ok start ∧
      (Call.expressions.run start).reading = .error ⟨"[a=[\x7d :1", ⟨.unexpectedInput, 4⟩⟩ ∧
      let p := start.after [.expressions]
      p.depth = 0 ∧
        (Call.scalar.run p).reading = (Call.scalar.run p.fresh).reading ∧
        (Call.scalar.run p).left.next = (Call.scalar.run p.fresh).left.next ∧
        (Call.scalar.run p).left.lexer = (Call.scalar.run p.fresh).left.lexer ∧
        (Call.scalar.run p).requests = (Call.scalar.run p.fresh).requests ∧
        (Call.scalar.run p).left.depth = 0 ∧ (Call.scalar.run p.fresh).left.depth = 0 := by
  have hnext : ((Lexer.ofText "[a=[\x7d :1").skip 1).next.1.item? =
      .ok ⟨some (.literal "a"), 1⟩ := by
    cbv
  have hstart := new?_of_item hnext
  refine ⟨ofItem _ hnext, hstart, ?_, run_independent_of_history hstart [.expressions] .scalar⟩
  rw [(run_expressions _ rfl).1]
  cbv

/-- Every call of a parser with `p.unread` tokens ahead makes at most one request more than that,
success is at the end, and a fault has used up a token (the end counts as one) or is an unclosed
quote, of which all calls together tell one at most. So after one call more than there are tokens
the end is ahead; once it is, all later calls answer as to an empty text. -/
theorem calls_make_progress (p : Parser) :
    (∀ call : Call,
      (call.run p).requests ≤ p.unread + 1 ∧
      (call.run p).left.lexer = p.lexer.skip (call.run p).requests ∧
      (∀ reading, (call.run p).reading = .ok reading → (call.run p).left.next.symbol = none) ∧
      ∀ error, (call.run p).reading = .error error →
        (call.run p).reportsUnclosed ∨ (call.run p).left.unread < p.unread ∨
          p.next.symbol = none ∧ (call.run p).left.matched = p.next) ∧
    (∀ calls, (p.ask calls).countP Answer.reportsUnclosed ≤ 1) ∧
    (∀ calls, p.unread + 1 ≤ calls.length → (p.after calls).next.symbol = none) ∧
    ∀ calls, (p.after calls).next.symbol = none → ∀ later,
      ((p.after calls).after later).next.symbol = none ∧
      (Call.expressions.run ((p.after calls).after later)).reading =
        .ok (.forest [.object .nil]) ∧
      (Call.scalar.run ((p.after calls).after later)).reading =
        .error ⟨p.lexer.input, ⟨.unexpectedEnd, p.lexer.input.utf8ByteSize⟩⟩ := by
  refine ⟨fun call => ⟨?_, lexer_run call p, fun reading => end_of_run_ok, fun error herror => ?_⟩,
    fun calls => ?_, fun calls hlength => ?_, fun calls hend later => ?_⟩
  · have hle := requests_run_le call p
    omega
  · cases hp : p.next.symbol with
    | none =>
      -- only the end is left to be taken, as expressions that are none or as the fault of a scalar
      cases call with
      | expressions =>
        rw [run_expressions_of_end hp] at herror
        contradiction
      | scalar =>
        rw [run_scalar_of_end hp]
        exact .inr (.inr ⟨rfl, rfl⟩)
    | some symbol =>
      cases h : p.lexer.next.1.item? with
      | error quote =>
        rw [run_of_unclosed call h]
        exact .inl rfl
      | ok next => exact .inr (.inl (unread_run_lt call hp h))
  · have hle := countP_reportsUnclosed_le calls p
    split at hle <;> omega
  · exact end_of_after calls p (Nat.le_trans p.remaining_le hlength)
  · have hlate := end_of_after_end later hend
    refine ⟨hlate, ?_, ?_⟩
    · rw [run_expressions_of_end hlate]
    · rw [run_scalar_of_end hlate, input_after, input_after]

/-- A bracket that stays ahead of an unclosed quote on the first call and is taken on the second. -/
theorem calls_make_progress_unclosed :
    ∃ p, new? (Lexer.ofText "] \"b") = .ok p ∧ p.unread = 1 ∧
      (Call.expressions.run p).reading = .error ⟨"] \"b", ⟨.unclosedString, 2⟩⟩ ∧
      (Call.expressions.run p).left.next = p.next ∧
      (p.after [.expressions, .scalar]).next.symbol = none := by
  have hnext : (Lexer.ofText "] \"b").next.1.item? = .ok ⟨some .closeBracket, 0⟩ := by cbv
  have hunread : (ofItem _ hnext).unread = 1 := by cbv
  refine ⟨ofItem _ hnext, new?_of_item hnext, hunread, by cbv, by cbv, ?_⟩
  exact (calls_make_progress _).2.2.1 [.expressions, .scalar] (Nat.le_of_eq (by rw [hunread]; rfl))

end JsonShorthand.Parser
