import JsonShorthand.Proofs.Courses

namespace JsonShorthand.Parser

variable {p : Parser}

theorem pending_ne_unclosed (p : Parser) (quote size : Nat) : p.pending ≠ .unclosed quote size := by
  cases hp : p.next.symbol with
  | some symbol => simp [pending_of_symbol hp]
  | none => simp [pending_of_end hp]

theorem head?_pending (p : Parser) : p.pending.head? = p.next.symbol := by
  cases hp : p.next.symbol with
  | some symbol => rw [pending_of_symbol hp]; rfl
  | none => rw [pending_of_end hp]; rfl

def cursor (p : Parser) : Cursor := ⟨p.lexer.input, p.pending⟩

section Rules

variable {State Result α β : Type} {reader : Reader State Result} {state : State}
  {step : Except Cause State} {post : α → Parser → State → Prop} {post' : β → Parser → State → Prop}

/-- From a state, a reader does what an outcome tells: it comes to a fault with the same tokens
left, or after a result to a state that stands in a relation to that result. -/
structure Follows (reader : Reader State Result) (state : State) (outcome : Outcome α p)
    (post : α → Parser → State → Prop) : Prop where
  of_ok : ∀ a, outcome.result = .ok a →
    ∃ next, reader.run state p.pending = reader.run next outcome.left.pending ∧
      post a outcome.left next
  of_error : ∀ error, outcome.result = .error error →
    error.input = p.lexer.input ∧
      reader.run state p.pending = (.error error.fault, outcome.left.pending)

/-- The same after a token was taken, given what the reader makes of that token: a fault of the
token is a fault at once. -/
def FollowsStep (reader : Reader State Result) (step : Except Cause State) (outcome : Outcome α p)
    (post : α → Parser → State → Prop) : Prop :=
  match step with
  | .ok state => Follows reader state outcome post
  | .error cause =>
    outcome.result = .error ⟨p.lexer.input, ⟨cause, p.matched.position⟩⟩ ∧
      outcome.left.pending = p.pending

namespace Follows

theorem ok {a : α} (h : post a p state) : Follows reader state (.ok a : Outcome α p) post where
  of_ok b hb := by
    obtain rfl := Except.ok.inj hb
    exact ⟨state, rfl, h⟩
  of_error := nofun

/-- What is done first and brings the reader to another state comes before what is done then. -/
theorem prepend {q : Parser} {first : State} {outcome : Outcome α p} {rest : Outcome α q}
    (h : Follows reader state rest post) (hinput : q.lexer.input = p.lexer.input)
    (hrun : reader.run first p.pending = reader.run state q.pending)
    (hresult : outcome.result = rest.result) (hleft : outcome.left = rest.left) :
    Follows reader first outcome post where
  of_ok a ha := by
    obtain ⟨next, hnext, hpost⟩ := h.of_ok a (hresult.symm.trans ha)
    exact ⟨next, hleft ▸ hrun.trans hnext, hleft ▸ hpost⟩
  of_error error herror := by
    obtain ⟨hinput', hnext⟩ := h.of_error error (hresult.symm.trans herror)
    exact ⟨hinput'.trans hinput, hleft ▸ hrun.trans hnext⟩

theorem map {outcome : Outcome α p} (h : Follows reader state outcome post) {g : α → β}
    (hg : ∀ a left next, post a left next → post' (g a) left next) :
    Follows reader state (outcome.map g) post' := by
  obtain ⟨result, left, requests, course⟩ := outcome
  cases result with
  | error error =>
    refine ⟨nofun, fun other hother => ?_⟩
    obtain rfl := Except.error.inj hother
    exact h.of_error error rfl
  | ok a =>
    refine ⟨fun b hb => ?_, nofun⟩
    obtain rfl := Except.ok.inj hb
    obtain ⟨next, hrun, hpost⟩ := h.of_ok a rfl
    exact ⟨next, hrun, hg a left next hpost⟩

theorem andThen {outcome : Outcome α p} (h : Follows reader state outcome post)
    {f : α → (left : Parser) → left.unread ≤ p.unread → Outcome β left}
    (hf : ∀ a left hleft next, post a left next → left.depth = p.depth →
      Follows reader next (f a left hleft) post') :
    Follows reader state (outcome.andThen f) post' := by
  obtain ⟨result, left, requests, course⟩ := outcome
  cases result with
  | error error =>
    refine ⟨nofun, fun other hother => ?_⟩
    obtain rfl := Except.error.inj hother
    exact h.of_error error rfl
  | ok a =>
    obtain ⟨next, hrun, hpost⟩ := h.of_ok a rfl
    have hrest := hf a left course.unread_le next hpost course.depth_eq
    exact hrest.prepend course.input_eq hrun rfl rfl

theorem unclosed {symbol : Symbol} {quote : Nat} (hp : p.next.symbol = some symbol)
    (h : p.lexer.next.1.item? = .error quote) :
    Follows reader state (p.unclosed quote h : Outcome α p) post where
  of_ok := nofun
  of_error error herror := by
    obtain rfl := Except.error.inj herror
    obtain ⟨size, hstream, hrest⟩ := Lexer.stream_of_unclosed h
    have hstall : p.stall.pending = .cons ⟨symbol, p.next.position⟩ (.finished size) :=
      (pending_of_symbol (p := p.stall) hp).trans (congrArg _ hrest)
    refine ⟨rfl, ?_⟩
    rw [pending_of_symbol hp, hstream, Reader.run_cons_unclosed]
    exact congrArg _ hstall.symm

theorem take {symbol : Symbol} (hp : p.next.symbol = some symbol)
    {f : (left : Parser) → left.unread < p.unread → Outcome α left}
    (hf : ∀ left hleft, left.matched = p.next → left.depth = p.depth →
      FollowsStep reader (reader.step state symbol left.next.symbol) (f left hleft) post) :
    Follows reader state (p.take hp f) post := by
  -- the token after this one is requested before anything is made of this one
  cases h : p.lexer.next.1.item? with
  | error quote =>
    rw [take_of_unclosed hp f h]
    exact unclosed hp h
  | ok next =>
    have hrest := hf (p.shift h) (unread_shift_lt hp h) rfl rfl
    have hpending : p.pending = .cons ⟨symbol, p.next.position⟩ (p.shift h).pending := by
      rw [pending_of_symbol hp, pending_shift]
    have hclosed : ∀ quote size, (p.shift h).pending ≠ .unclosed quote size :=
      pending_ne_unclosed (p.shift h)
    rw [take_of_item hp f h]
    cases hstep : reader.step state symbol (p.shift h).next.symbol with
    | ok mid =>
      rw [hstep] at hrest
      have hrun : reader.run state p.pending = reader.run mid (p.shift h).pending := by
        rw [hpending]
        exact reader.run_cons_of_ok hclosed ((head?_pending _).symm ▸ hstep)
      exact Follows.prepend hrest rfl hrun rfl rfl
    | error cause =>
      rw [hstep] at hrest
      obtain ⟨hresult, hleft⟩ := hrest
      have hrun : reader.run state p.pending =
          (.error ⟨cause, p.next.position⟩, (p.shift h).pending) := by
        rw [hpending]
        exact reader.run_cons_of_error hclosed ((head?_pending _).symm ▸ hstep)
      exact {
        of_ok := fun a ha => by
          rw [hresult] at ha
          contradiction
        of_error := fun error herror => by
          obtain rfl := Except.error.inj (hresult.symm.trans herror)
          exact ⟨rfl, hrun.trans (congrArg _ hleft.symm)⟩ }

theorem reject {cause : Cause} (hcause : cause.isOfLexer = false)
    (hstep : ∀ symbol, p.next.symbol = some symbol → ∀ following,
      reader.step state symbol following = .error cause)
    (hfinish : p.next.symbol = none → reader.finish state = .error cause) :
    Follows reader state (p.reject cause hcause : Outcome α p) post := by
  cases hp : p.next.symbol with
  | none =>
    have h := item?_of_end hp
    rw [reject_of_item hcause h]
    refine ⟨nofun, fun error herror => ?_⟩
    obtain rfl := Except.error.inj herror
    refine ⟨rfl, ?_⟩
    rw [pending_shift_of_end hp h, pending_of_end hp, Reader.run_finished, hfinish hp]
    rfl
  | some symbol =>
    cases h : p.lexer.next.1.item? with
    | error quote =>
      rw [reject_of_unclosed hcause h]
      exact unclosed hp h
    | ok next =>
      rw [reject_of_item hcause h]
      refine ⟨nofun, fun error herror => ?_⟩
      obtain rfl := Except.error.inj herror
      refine ⟨rfl, ?_⟩
      rw [pending_of_symbol hp, ← pending_shift h]
      exact reader.run_cons_of_error (pending_ne_unclosed (p.shift h)) (hstep symbol hp _)

end Follows

/-- A state in which a result may end, before a token that nothing but a fault can be made of. -/
def Concludes (reader : Reader State Result) (result : Result) (left : Parser) (next : State) :
    Prop :=
  reader.finish next = .ok result ∧
    ∀ symbol, left.next.symbol = some symbol → ∀ following,
      reader.step next symbol following = .error .unexpectedInput

theorem run_congr {other : State} (stream : TokenStream)
    (hstep : ∀ symbol, stream.head? = some symbol → ∀ following,
      reader.step state symbol following = reader.step other symbol following)
    (hfinish : stream.head? = none → reader.finish state = reader.finish other) :
    reader.run state stream = reader.run other stream := by
  cases stream with
  | finished size => rw [Reader.run_finished, Reader.run_finished, hfinish rfl]
  | unclosed quote size => rfl
  | cons token rest =>
    rcases rest.eq_unclosed_or with ⟨quote, size, rfl⟩ | hclosed
    · rfl
    · have hsame := hstep token.symbol rfl rest.head?
      cases hother : reader.step other token.symbol rest.head? with
      | ok next =>
        rw [reader.run_cons_of_ok hclosed hother,
          reader.run_cons_of_ok hclosed (hsame.trans hother)]
      | error cause =>
        rw [reader.run_cons_of_error hclosed hother,
          reader.run_cons_of_error hclosed (hsame.trans hother)]

theorem finish_of_symbol {symbol : Symbol} (hp : p.next.symbol = some symbol) (reading : Reading)
    (requests : Nat) :
    ∃ error, (p.reject .unexpectedInput rfl : Outcome Reading p).result = .error error ∧
      p.finish reading requests =
        ⟨.error error, (p.reject .unexpectedInput rfl : Outcome Reading p).left,
          requests + 1⟩ := by
  cases h : p.lexer.next.1.item? with
  | ok next =>
    rw [finish_of_item h, reject_of_item _ h, if_neg (by simp [hp])]
    exact ⟨_, rfl, rfl⟩
  | error quote =>
    rw [finish_of_unclosed h, reject_of_unclosed _ h]
    exact ⟨_, rfl, rfl⟩

theorem read_of_run {result : Except Fault Result} {rest : TokenStream}
    (h : reader.run reader.start p.pending = (result, rest)) :
    p.cursor.read reader = (result.mapError (⟨p.lexer.input, ·⟩), ⟨p.lexer.input, rest⟩) := by
  simp only [Cursor.read, cursor, h]

theorem Follows.close {outcome : Outcome Result p}
    (h : Follows reader reader.start outcome (Concludes reader)) (g : Result → Reading) :
    (outcome.map g).close.reading = (p.cursor.read reader).1.map g ∧
      (outcome.map g).close.left.cursor = (p.cursor.read reader).2 := by
  obtain ⟨result, left, requests, course⟩ := outcome
  have hinput := course.input_eq
  cases result with
  | error error =>
    obtain ⟨herror, hrun⟩ := h.of_error error rfl
    rw [read_of_run hrun, ← herror]
    exact ⟨rfl, congrArg (Cursor.mk · left.pending) (hinput.trans herror.symm)⟩
  | ok a =>
    obtain ⟨next, hrun, hfinish, hstep⟩ := h.of_ok a rfl
    show (left.finish (g a) requests).reading = _ ∧ (left.finish (g a) requests).left.cursor = _
    -- at the end the reader concludes, and a token that is left over is a fault for both
    cases hleft : left.next.symbol with
    | none =>
      have hitem := item?_of_end hleft
      have hend : reader.run next left.pending = (.ok a, left.pending) := by
        rw [pending_of_end hleft, Reader.run_finished, hfinish]
        rfl
      rw [finish_of_item hitem, if_pos hleft, read_of_run (hrun.trans hend), ← hinput]
      exact ⟨rfl, congrArg (Cursor.mk left.lexer.input) (pending_shift_of_end hleft hitem)⟩
    | some symbol =>
      obtain ⟨error, hreject, hclose⟩ := finish_of_symbol hleft (g a) requests
      have hfollows : Follows reader next (left.reject .unexpectedInput rfl : Outcome Reading left)
          fun _ _ _ => True := .reject _ hstep (by simp [hleft])
      obtain ⟨herror, hrest⟩ := hfollows.of_error error hreject
      rw [hclose, read_of_run (hrun.trans hrest), ← hinput, ← herror]
      exact ⟨rfl, congrArg (Cursor.mk · _) ((Outcome.course _).input_eq.trans herror.symm)⟩

namespace FollowsStep

theorem imp {outcome : Outcome α p} {other : α → Parser → State → Prop}
    (h : FollowsStep reader step outcome post)
    (hpost : ∀ a left next, post a left next → other a left next) :
    FollowsStep reader step outcome other := by
  cases step with
  | ok state =>
    refine ⟨fun a ha => ?_, h.of_error⟩
    obtain ⟨next, hrun, hnext⟩ := Follows.of_ok h a ha
    exact ⟨next, hrun, hpost a _ next hnext⟩
  | error cause => exact h

theorem map {outcome : Outcome α p} (h : FollowsStep reader step outcome post) {g : α → β}
    (hg : ∀ a left next, post a left next → post' (g a) left next) :
    FollowsStep reader step (outcome.map g) post' := by
  cases step with
  | ok state => exact Follows.map h hg
  | error cause =>
    obtain ⟨hresult, hleft⟩ := h
    exact ⟨congrArg (Except.map g) hresult, hleft⟩

theorem andThen {outcome : Outcome α p} (h : FollowsStep reader step outcome post)
    {f : α → (left : Parser) → left.unread ≤ p.unread → Outcome β left}
    (hf : ∀ a left hleft next, post a left next → left.depth = p.depth →
      Follows reader next (f a left hleft) post') :
    FollowsStep reader step (outcome.andThen f) post' := by
  cases step with
  | ok state => exact Follows.andThen h hf
  | error cause =>
    obtain ⟨result, left, requests, course⟩ := outcome
    obtain ⟨hresult, hleft⟩ := h
    obtain rfl : result = .error ⟨p.lexer.input, ⟨cause, p.matched.position⟩⟩ := hresult
    exact ⟨rfl, hleft⟩

end FollowsStep

theorem followsStep_scalarOf (p : Parser) (symbol : Symbol) (next : Value → State) :
    FollowsStep reader (symbol.scalar.map next) (p.scalarOf symbol) fun v _ last =>
      last = next v := by
  rw [scalarOf]
  split
  · next v hv =>
    have hstep := congrArg (Except.map next) hv
    rw [hstep]
    exact Follows.ok rfl
  · next cause hcause =>
    have hstep := congrArg (Except.map next) hcause
    rw [hstep]
    exact ⟨rfl, rfl⟩

end Rules

def Fills (hole : Hole) : Generator → Parser → Forest.State → Prop :=
  fun generator _ next => next = .fill generator hole

open Forest
open Forest.State

theorem followsStep_nested {next : Forest.State} {hole : Hole} {depth : Nat}
    (hdepth : p.depth = depth)
    {production : (inner : Parser) → inner.unread = p.unread → Outcome Generator inner}
    (h : ∀ inner hinner, inner.depth = depth + 1 →
      Follows reader next (production inner hinner) (Fills hole)) :
    FollowsStep reader (descend depth next) (p.nested production) (Fills hole) := by
  rw [nested, descend, hdepth]
  by_cases hlimit : depth < nestingLimit
  · rw [if_pos hlimit, if_pos hlimit]
    have hinner := h p.enter rfl (congrArg (· + 1) hdepth)
    exact ⟨hinner.of_ok, hinner.of_error⟩
  · rw [if_neg hlimit, if_neg hlimit]
    exact ⟨rfl, rfl⟩

/-- The states between fields, and the holes of their tails inside `depth` levels. -/
structure BetweenFields (state : Fields Generator none → State)
    (hole : Fields Generator none → String → Hole) (depth : Nat) : Prop where
  step_literal : ∀ present name following,
    (state present).step (.literal name) following = openTail (hole present name)
  fill_hole : ∀ present name generator,
    State.fill generator (hole present name) = state (present.add name generator)
  depth_hole : ∀ present name, depth + 1 = (hole present name).depth

theorem betweenFields_fields : BetweenFields .fields .field 0 :=
  ⟨fun _ _ _ => rfl, fun _ _ _ => rfl, fun _ _ => rfl⟩

theorem betweenFields_members (outer : Hole) :
    BetweenFields (.members · outer) (.member · · outer) (outer.depth + 1) :=
  ⟨fun _ _ _ => rfl, fun _ _ _ => rfl, fun _ _ => rfl⟩

theorem step_elements_literal (earlier : List Generator) (outer : Hole) (text : String)
    (following : Option Symbol) :
    reader.step (.elements earlier outer) (.literal text) following =
      if following = some .assign ∨ following = some .dot then
        openTail (.segment text (.element earlier outer))
      else .ok (.elements (.value (.string text) :: earlier) outer) := rfl

-- The recursion is that of the productions; what each of them keeps is that the levels open in the
-- parser are those of the hole.
mutual

theorem content_follows (p : Parser) (symbol : Symbol) (hole : Hole)
    (hdepth : p.depth = hole.depth) :
    FollowsStep reader (stepValue hole symbol) (content p symbol) (Fills hole) := by
  have hscalar : FollowsStep reader _ _ _ :=
    followsStep_scalarOf p symbol fun v => State.fill (.value v) hole
  cases symbol with
  | var name =>
    rw [content]
    exact Follows.ok rfl
  | openBrace =>
    rw [content]
    exact object_follows p hole hdepth
  | openBracket =>
    rw [content]
    exact array_follows p hole hdepth
  | _ =>
    rw [content]
    · exact hscalar.map fun v left next hnext => hnext
    all_goals nofun
termination_by 4 * p.unread + 2

theorem object_follows (p : Parser) (hole : Hole) (hdepth : p.depth = hole.depth) :
    FollowsStep reader (openObject hole) (object p) (Fills hole) := by
  rw [object]
  refine followsStep_nested hdepth fun inner hinner hdepth' => ?_
  have hfields := fields_follows inner .nil (hdepth' ▸ betweenFields_members hole)
  refine hfields.andThen fun present left _ next hnext _ => ?_
  obtain ⟨rfl, hliteral⟩ := hnext
  split
  · next hleft => exact Follows.take hleft fun _ _ _ _ => Follows.ok rfl
  · next hbrace =>
    refine Follows.reject _ (fun symbol hsymbol following => ?_) fun _ => rfl
    cases symbol with
    | literal name => exact absurd hsymbol (hliteral name)
    | closeBrace => exact absurd hsymbol hbrace
    | _ => rfl
termination_by 4 * p.unread + 1

theorem array_follows (p : Parser) (hole : Hole) (hdepth : p.depth = hole.depth) :
    FollowsStep reader (openArray hole) (array p) (Fills hole) := by
  rw [array]
  exact followsStep_nested hdepth fun inner hinner hdepth' => elements_follows inner [] hole hdepth'
termination_by 4 * p.unread + 1

theorem fields_follows (p : Parser) (present : Fields Generator none)
    {state : Fields Generator none → State} {hole : Fields Generator none → String → Hole}
    (hbetween : BetweenFields state hole p.depth) :
    Follows reader (state present) (fields present p) fun fields left next =>
      next = state fields ∧ ∀ name, left.next.symbol ≠ some (.literal name) := by
  by_cases hliteral : ∃ name, p.next.symbol = some (.literal name)
  · obtain ⟨name, hp⟩ := hliteral
    rw [fields_of_literal present hp]
    refine Follows.take hp fun left hleft _ hdepth => ?_
    have hstep := hbetween.step_literal present name left.next.symbol
    have htail := tail_follows left (hole present name) (hdepth ▸ hbetween.depth_hole present name)
    refine FollowsStep.andThen (hstep ▸ htail) fun generator last hlast next hnext hdepth' => ?_
    obtain rfl := hnext
    rw [hbetween.fill_hole]
    exact fields_follows last _ (hdepth'.trans hdepth ▸ hbetween)
  · have hp : ∀ name, p.next.symbol ≠ some (.literal name) :=
      fun name heq => hliteral ⟨name, heq⟩
    rw [fields_of_other present hp]
    exact Follows.ok ⟨rfl, hp⟩
termination_by 4 * p.unread

theorem elements_follows (p : Parser) (earlier : List Generator) (outer : Hole)
    (hdepth : p.depth = outer.depth + 1) :
    Follows reader (.elements earlier outer) (elements earlier p) (Fills outer) := by
  rw [elements]
  split
  · next hp => exact Follows.reject _ (by simp [hp]) fun _ => rfl
  · next hp => exact Follows.take hp fun left hleft _ _ => Follows.ok rfl
  · next text hp =>
    refine Follows.take hp fun left hleft _ hdepth' => ?_
    -- the symbol that the reader sees after the literal is the token ahead of the parser
    rw [step_elements_literal]
    split
    · have htail := tail_follows left (.segment text (.element earlier outer))
        (congrArg (· + 1) (hdepth'.trans hdepth))
      refine htail.andThen fun generator last hlast next hnext hdepth'' => ?_
      obtain rfl := hnext
      exact elements_follows last _ outer (hdepth''.trans (hdepth'.trans hdepth))
    · exact elements_follows left _ outer (hdepth'.trans hdepth)
  · next symbol hbracket hliteral hp =>
    refine Follows.take hp fun left hleft _ hdepth' => ?_
    have hcontent := content_follows left symbol (.element earlier outer) (hdepth'.trans hdepth)
    have hstep : reader.step (.elements earlier outer) symbol left.next.symbol =
        stepValue (.element earlier outer) symbol := by
      cases symbol with
      | closeBracket => simp at hbracket
      | literal text => simp at hliteral
      | _ => rfl
    rw [hstep]
    refine hcontent.andThen fun generator last hlast next hnext hdepth'' => ?_
    obtain rfl := hnext
    exact elements_follows last _ outer (hdepth''.trans (hdepth'.trans hdepth))
termination_by 4 * p.unread

theorem tail_follows (p : Parser) (hole : Hole) (hdepth : p.depth + 1 = hole.depth) :
    FollowsStep reader (openTail hole) (tail p) (Fills hole) := by
  rw [tail]
  refine followsStep_nested (by omega) fun inner hinner hdepth' => ?_
  have hinside : inner.depth = hole.depth := by omega
  split
  · next hp => exact Follows.reject _ (by simp [hp]) fun _ => rfl
  · next hp =>
    exact Follows.take hp fun left hleft _ hdepth'' =>
      value_follows left hole (hdepth''.trans hinside)
  · next hp =>
    exact Follows.take hp fun left hleft _ hdepth'' =>
      path_follows left hole (hdepth''.trans hinside)
  · next symbol hassign hdot hp =>
    refine Follows.reject _ (fun other hother following => ?_) (by simp [hp])
    obtain rfl := Option.some.inj (hp.symm.trans hother)
    cases symbol with
    | assign => simp at hassign
    | dot => simp at hdot
    | _ => rfl
termination_by 4 * p.unread + 1

theorem path_follows (p : Parser) (hole : Hole) (hdepth : p.depth = hole.depth) :
    Follows reader (.path hole) (path p) (Fills hole) := by
  rw [path]
  split
  · next name hp =>
    refine Follows.take hp fun left hleft _ hdepth' => ?_
    have htail := tail_follows left (.segment name hole)
      (congrArg (· + 1) (hdepth'.trans hdepth))
    exact htail.map fun generator last next hnext => hnext
  · next hliteral =>
    refine Follows.reject _ (fun symbol hsymbol following => ?_) fun _ => rfl
    cases symbol with
    | literal name => exact absurd hsymbol (hliteral name)
    | _ => rfl
termination_by 4 * p.unread

theorem value_follows (p : Parser) (hole : Hole) (hdepth : p.depth = hole.depth) :
    Follows reader (.value hole) (value p) (Fills hole) := by
  rw [value]
  split
  · next hp => exact Follows.reject _ (by simp [hp]) fun _ => rfl
  · next symbol hp =>
    exact Follows.take hp fun left hleft _ hdepth' =>
      content_follows left symbol hole (hdepth'.trans hdepth)
termination_by 4 * p.unread

end

theorem groups_follows (p : Parser) (earlier : List Generator) (hdepth : p.depth = 0) :
    Follows reader (.groups earlier) (groups earlier p) (Concludes reader) := by
  by_cases hbrace : p.next.symbol = some .openBrace
  · rw [groups_of_openBrace earlier hbrace]
    refine Follows.take hbrace fun left hleft _ hdepth' => ?_
    have hobject := object_follows left (.group earlier) (hdepth'.trans hdepth)
    refine FollowsStep.andThen hobject fun generator last hlast next hnext hdepth'' => ?_
    obtain rfl := hnext
    exact groups_follows last _ (hdepth''.trans (hdepth'.trans hdepth))
  · by_cases hbracket : p.next.symbol = some .openBracket
    · rw [groups_of_openBracket earlier hbracket]
      refine Follows.take hbracket fun left hleft _ hdepth' => ?_
      have harray := array_follows left (.group earlier) (hdepth'.trans hdepth)
      refine FollowsStep.andThen harray fun generator last hlast next hnext hdepth'' => ?_
      obtain rfl := hnext
      exact groups_follows last _ (hdepth''.trans (hdepth'.trans hdepth))
    · rw [groups_of_other earlier hbrace hbracket]
      refine Follows.ok ⟨rfl, fun symbol hsymbol following => ?_⟩
      cases symbol with
      | openBrace => exact absurd hsymbol hbrace
      | openBracket => exact absurd hsymbol hbracket
      | _ => rfl
termination_by p.unread

theorem start_follows (p : Parser) (hdepth : p.depth = 0) :
    Follows reader .start (start p) (Concludes reader) := by
  rw [start]
  split
  · next hgroup =>
    -- a first bracket is taken at the start as it is between groups
    refine (groups_follows p [] hdepth).prepend rfl (run_congr _ ?_ ?_) rfl rfl
    · intro symbol hsymbol following
      rw [head?_pending] at hsymbol
      rcases hgroup with h | h
      · obtain rfl := Option.some.inj (hsymbol.symm.trans h)
        rfl
      · obtain rfl := Option.some.inj (hsymbol.symm.trans h)
        rfl
    · intro hend
      rw [head?_pending] at hend
      simp [hend] at hgroup
  · next hgroup =>
    have hfields := fields_follows p .nil (hdepth ▸ betweenFields_fields)
    refine (hfields.map fun fields left next hnext => ?_).prepend rfl (run_congr _ ?_ ?_) rfl rfl
    · obtain ⟨rfl, hliteral⟩ := hnext
      refine ⟨rfl, fun symbol hsymbol following => ?_⟩
      cases symbol with
      | literal name => exact absurd hsymbol (hliteral name)
      | _ => rfl
    · intro symbol hsymbol following
      rw [head?_pending] at hsymbol
      cases symbol with
      | openBrace => exact absurd (.inl hsymbol) hgroup
      | openBracket => exact absurd (.inr hsymbol) hgroup
      | _ => rfl
    · exact fun _ => rfl

theorem scalar_follows (p : Parser) :
    Follows Value.scalarReader none p.scalar (Concludes Value.scalarReader) := by
  cases hp : p.next.symbol with
  | none =>
    rw [scalar_of_end hp]
    exact Follows.reject _ (by simp [hp]) fun _ => rfl
  | some symbol =>
    rw [scalar_of_symbol hp]
    refine Follows.take hp fun left hleft _ _ => ?_
    refine (followsStep_scalarOf left symbol some).imp fun v last next hnext => ?_
    obtain rfl := hnext
    exact ⟨rfl, fun _ _ _ => rfl⟩

/-- Recursive descent reads expressions as the reader of states does, and leaves the same. -/
theorem run_expressions (p : Parser) (hdepth : p.depth = 0) :
    (Call.expressions.run p).reading = (p.cursor.read reader).1.map .forest ∧
      (Call.expressions.run p).left.cursor = (p.cursor.read reader).2 :=
  (start_follows p hdepth).close .forest

theorem run_scalar (p : Parser) :
    (Call.scalar.run p).reading = (p.cursor.read Value.scalarReader).1.map .value ∧
      (Call.scalar.run p).left.cursor = (p.cursor.read Value.scalarReader).2 :=
  p.scalar_follows.close .value

theorem ready_cursor (p : Parser) : p.cursor.ready = .ok p.cursor := by
  unfold Cursor.ready
  split
  · next quote size hpending => exact absurd hpending (pending_ne_unclosed p quote size)
  · rfl

/-- A parser is made just where a reader may start, and has all tokens ahead. -/
theorem new?_eq_ready (input : String) :
    (new? (.ofText input)).map cursor = (Cursor.ofText input).ready := by
  have hlex : (Lexer.ofText input).stream = lex input := rfl
  cases h : (Lexer.ofText input).next.1.item? with
  | ok next =>
    have hcursor : (ofItem (.ofText input) h).cursor = .ofText input :=
      congrArg (Cursor.mk input) (Lexer.stream_of_item h).symm
    rw [new?_of_item h, ← hcursor, ready_cursor]
    rfl
  | error quote =>
    obtain ⟨size, hstream, -⟩ := Lexer.stream_of_unclosed h
    rw [new?_of_unclosed h, Cursor.ready, Cursor.ofText, ← hlex, hstream]
    rfl

theorem read_eq_of_ready {State Result : Type} (reader : Reader State Result) (input : String) :
    reader.read input = (Cursor.ofText input).ready.bind fun start => (start.read reader).1 := by
  rw [Cursor.ready]
  split
  · next quote size hpending =>
    rw [Reader.read, Cursor.read, hpending]
    rfl
  · rfl

/-- Expressions are read by recursive descent. -/
theorem readForest_eq_run (input : String) :
    (readForest input).map .forest =
      (new? (.ofText input)).bind fun p => (Call.expressions.run p).reading := by
  rw [readForest, read_eq_of_ready, ← new?_eq_ready]
  cases h : new? (.ofText input) with
  | ok p => exact (run_expressions p (depth_of_new? h)).1.symm
  | error error => rfl

theorem readScalar_eq_run (input : String) :
    (readScalar input).map .value =
      (new? (.ofText input)).bind fun p => (Call.scalar.run p).reading := by
  rw [readScalar, read_eq_of_ready, ← new?_eq_ready]
  cases h : new? (.ofText input) with
  | ok p => exact (run_scalar p).1.symm
  | error error => rfl

end JsonShorthand.Parser
