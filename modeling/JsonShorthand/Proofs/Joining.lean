import Mathlib
import JsonShorthand.Proofs.Entries
import JsonShorthand.Proofs.Lexing
import JsonShorthand.Proofs.Unambiguity

namespace JsonShorthand

def Symbol.opensGroup : Symbol → Bool
  | openBrace | openBracket => true
  | _ => false

def beginsGroup (input : String) : Bool := (lex input).head?.any Symbol.opensGroup

def Hole.grouped : Hole → Bool
  | group _ => true
  | field _ _ => false
  | member _ _ outer => outer.grouped
  | segment _ outer => outer.grouped
  | element _ outer => outer.grouped

/-- Whether a text is made of groups, as far as its first symbol has told. -/
def Forest.State.grouped? : Forest.State → Option Bool
  | start => none
  | groups _ => some true
  | fields _ => some false
  | members _ outer => some outer.grouped
  | elements _ outer => some outer.grouped
  | tail hole => some hole.grouped
  | path hole => some hole.grouped
  | value hole => some hole.grouped

namespace Grammar

open Forest.State

variable {forest : Forest} {state next last : Forest.State} {symbol : Symbol}

theorem grouped?_fill (generator : Generator) (hole : Hole) :
    (fill generator hole).grouped? = some hole.grouped := by
  induction hole generalizing generator with
  | segment name outer ih => exact ih (.single name generator)
  | _ => rfl

theorem grouped?_stepValue (hole : Hole) (h : stepValue hole symbol = .ok next) :
    next.grouped? = some hole.grouped := by
  cases symbol <;> simp only [stepValue, Symbol.scalar, openObject_eq_ok_iff, openArray_eq_ok_iff,
    Except.map, Except.ok.injEq, reduceCtorEq] at h
  case openBrace | openBracket =>
    obtain ⟨-, rfl⟩ := h
    rfl
  case literal | var =>
    subst h
    exact grouped?_fill _ hole
  case raw text =>
    cases hraw : Value.ofRaw? text with
    | none => simp [hraw] at h
    | some v =>
      simp only [hraw, Except.ok.injEq] at h
      subst h
      exact grouped?_fill _ hole

/-- The first symbol tells what a text is made of, and no later one changes that. -/
theorem grouped?_step {following : Option Symbol} (h : state.step symbol following = .ok next) :
    next.grouped? = some (state.grouped?.getD symbol.opensGroup) := by
  -- at the top the state tells the kind, and inside of a hole the hole does
  cases state with
  | start | groups earlier | fields present =>
    cases symbol <;> simp only [step, openObject_eq_ok_iff, openArray_eq_ok_iff,
      openTail_eq_ok_iff, reduceCtorEq] at h
    all_goals
      obtain ⟨-, rfl⟩ := h
      rfl
  | members present outer =>
    cases symbol <;> simp only [step, openTail_eq_ok_iff, Except.ok.injEq, reduceCtorEq] at h
    case literal name =>
      obtain ⟨-, rfl⟩ := h
      rfl
    case closeBrace =>
      subst h
      exact grouped?_fill _ outer
  | elements earlier outer =>
    cases symbol with
    | literal text =>
      by_cases hname : following = some .assign ∨ following = some .dot
      · simp only [step, if_pos hname, openTail_eq_ok_iff] at h
        obtain ⟨-, rfl⟩ := h
        rfl
      · simp only [step, if_neg hname, Except.ok.injEq] at h
        subst h
        rfl
    | closeBracket =>
      simp only [step, Except.ok.injEq] at h
      subst h
      exact grouped?_fill _ outer
    | _ =>
      rw [step] at h
      · exact grouped?_stepValue (.element earlier outer) h
      all_goals simp
  | tail hole =>
    cases symbol <;> simp only [step, Except.ok.injEq, reduceCtorEq] at h
    all_goals
      subst h
      rfl
  | path hole =>
    cases symbol <;> simp only [step, openTail_eq_ok_iff, reduceCtorEq] at h
    obtain ⟨-, rfl⟩ := h
    rfl
  | value hole => exact grouped?_stepValue hole h

/-- A text cannot end after a symbol that was taken in view of the end and would have been taken
otherwise in view of another symbol. -/
theorem step_of_finish (hstep : state.step symbol none = .ok next)
    (hfinish : next.finish = .ok forest) (following : Option Symbol) :
    state.step symbol following = .ok next := by
  rcases step_following_eq state symbol none following with heq | ⟨text, earlier, outer, rfl, rfl⟩
  · rw [← heq, hstep]
  · -- the array would still be open
    obtain rfl := Except.ok.inj hstep
    simp [fill, finish] at hfinish

/-- Reading goes on from the state in which it could have ended. -/
theorem run_append {earlier later : TokenStream}
    (hrun : (Forest.reader.run state earlier).1 = .ok forest)
    (hlater : ∀ quote size, later ≠ .unclosed quote size) :
    ∃ last : Forest.State, last.finish = .ok forest ∧
      last.grouped? = state.grouped?.or (earlier.head?.map Symbol.opensGroup) ∧
      Forest.reader.run state (earlier.append later) = Forest.reader.run last later := by
  induction earlier generalizing state with
  | finished size =>
    have hfinish : state.finish = .ok forest := by
      simpa [mapError_eq_ok_iff, Forest.reader] using hrun
    exact ⟨state, hfinish, by simp [TokenStream.head?], rfl⟩
  | unclosed quote size => simp at hrun
  | cons token rest ih =>
    have hrest : ∀ quote size, rest ≠ .unclosed quote size := by
      rintro quote size rfl
      simp at hrun
    cases hstep : state.step token.symbol rest.head? with
    | error cause => simp [Forest.reader.run_cons_of_error hrest hstep] at hrun
    | ok next =>
      rw [Forest.reader.run_cons_of_ok hrest hstep] at hrun
      obtain ⟨last, hfinish, hgrouped, hlast⟩ := ih hrun
      have hmore : ∀ quote size, rest.append later ≠ .unclosed quote size := by
        cases rest with
        | finished size => exact hlater
        | unclosed quote size => simp at hrest
        | cons second others => simp [TokenStream.append]
      -- the last symbol of the first text now has a symbol after it instead of the end
      have hagain : state.step token.symbol (rest.append later).head? = .ok next := by
        cases rest with
        | finished size =>
          have hend : next.finish = .ok forest := by
            simpa [mapError_eq_ok_iff, Forest.reader] using hrun
          exact step_of_finish hstep hend _
        | unclosed quote size => simp at hrest
        | cons second others => exact hstep
      refine ⟨last, hfinish, ?_, ?_⟩
      · rw [hgrouped, grouped?_step hstep]
        cases state.grouped? <;> rfl
      · rw [TokenStream.append, Forest.reader.run_cons_of_ok hmore hagain, hlast]

theorem Text.opensGroup_groups (first : Group) (rest : List Group) :
    (Text.groups first rest).symbols.head?.any Symbol.opensGroup = true := by
  cases first <;> rfl

theorem Text.opensGroup_fields (members : Members) :
    (Text.fields members).symbols.head?.any Symbol.opensGroup = false := by
  cases members <;> rfl

theorem accept_groups {symbols : List Symbol} (h : Forest.reader.accept .start symbols = .ok forest)
    (hsymbols : symbols.head?.any Symbol.opensGroup) (earlier : List Generator) :
    Forest.reader.accept (.groups earlier) symbols = .ok (earlier.reverse ++ forest) := by
  obtain ⟨hraws, text, rfl, hlevels, hdenote⟩ := (accept_eq_ok_iff _ _).1 h
  cases text with
  | groups first rest =>
    refine (accept_eq_ok_iff _ _).2 ⟨hraws, first :: rest, rfl, hlevels, ?_⟩
    exact congrArg (earlier.reverse ++ ·) hdenote
  | fields members => simp [Text.opensGroup_fields] at hsymbols

theorem accept_members_iff (members : Members) :
    Forest.reader.accept .start members.symbols = .ok forest ↔
      RawAccepted members.symbols ∧ members.levels ≤ nestingLimit ∧
        forest = [.object (Fields.addList .nil members.entries)] := by
  rw [accept_eq_ok_iff]
  apply Iff.intro
  · rintro ⟨hraws, text, hsymbols, hlevels, rfl⟩
    obtain rfl : Text.fields members = text := Text.eq_of_symbols hsymbols
    exact ⟨hraws, hlevels, rfl⟩
  · rintro ⟨hraws, hlevels, rfl⟩
    exact ⟨hraws, .fields members, rfl, hlevels, rfl⟩

theorem accept_fields {members : Members}
    (h : Forest.reader.accept .start members.symbols = .ok forest)
    (present : Fields Generator none) :
    Forest.reader.accept (.fields present) members.symbols =
      .ok [.object (present.addList members.entries)] := by
  obtain ⟨hraws, hlevels, -⟩ := (accept_members_iff members).1 h
  exact (accept_eq_ok_iff _ _).2 ⟨hraws, members, rfl, hlevels, rfl⟩

theorem eq_of_accept_members {members : Members}
    (h : Forest.reader.accept .start members.symbols = .ok forest) :
    forest = [.object (Fields.addList .nil members.entries)] :=
  ((accept_members_iff members).1 h).2.2

theorem exists_members_of_accept {symbols : List Symbol}
    (h : Forest.reader.accept .start symbols = .ok forest)
    (hsymbols : ¬ symbols.head?.any Symbol.opensGroup) :
    ∃ members : Members, symbols = members.symbols := by
  obtain ⟨-, text, rfl, -, -⟩ := (accept_eq_ok_iff _ _).1 h
  cases text with
  | groups first rest => exact absurd (Text.opensGroup_groups first rest) hsymbols
  | fields members => exact ⟨members, rfl⟩

theorem finish_cases (h : last.finish = .ok forest) :
    (last = .start ∧ forest = [.object .nil]) ∨
      (∃ earlier, last = .groups earlier ∧ forest = earlier.reverse) ∨
      (∃ present, last = .fields present ∧ forest = [.object present]) := by
  cases last <;> simp_all [finish, eq_comm]

theorem accept_members {members : Members} {present : Fields Generator none}
    (hfinish : last.finish = .ok [.object present]) (hgrouped : last.grouped? ≠ some true)
    (h : Forest.reader.accept .start members.symbols = .ok forest) :
    Forest.reader.accept last members.symbols =
      .ok [.object (present.addList members.entries)] := by
  rcases finish_cases hfinish with ⟨rfl, heq⟩ | ⟨earlier, rfl, -⟩ | ⟨fields, rfl, heq⟩
  · obtain rfl : present = .nil := by simpa using heq
    rw [h, eq_of_accept_members h]
  · exact absurd rfl hgrouped
  · obtain rfl : present = fields := by simpa using heq
    exact accept_fields h present

/-- Nothing of the other kind follows a text. -/
theorem run_of_kind_ne {grouped : Bool} (hfinish : last.finish = .ok forest)
    (hgrouped : last.grouped? = some grouped) (token : Token) {rest : TokenStream}
    (hrest : rest.symbols? ≠ none) (htoken : token.symbol.opensGroup ≠ grouped) :
    (Forest.reader.run last (.cons token rest)).1 =
      .error ⟨.unexpectedInput, token.position⟩ := by
  have hstep : last.step token.symbol rest.head? = .error .unexpectedInput := by
    revert htoken
    rcases finish_cases hfinish with ⟨rfl, -⟩ | ⟨earlier, rfl, -⟩ | ⟨present, rfl, -⟩
    · contradiction
    · obtain rfl : true = grouped := Option.some.inj hgrouped
      cases token.symbol <;> simp [Symbol.opensGroup, step]
    · obtain rfl : false = grouped := Option.some.inj hgrouped
      cases token.symbol <;> simp [Symbol.opensGroup, step]
  have hclosed : ∀ quote size, rest ≠ .unclosed quote size := by
    rintro quote size rfl
    exact hrest rfl
  rw [Forest.reader.run_cons_of_error hclosed hstep]

end Grammar

open Grammar

variable {x y : String} {earlier later : Forest}

theorem lex_join (hx : readForest x = .ok earlier) :
    lex (x ++ " " ++ y) = (lex x).append ((lex y).shift (x.utf8ByteSize + 1)) := by
  obtain ⟨symbols, text, hsymbols, -⟩ := (readForest_eq_ok_iff x earlier).1 hx
  have htext : symbolsOf x.toList ≠ none := by simp [← symbols?_lex, hsymbols]
  have hrest : ∀ d, (' ' :: y.toList).head? = some d → isDelimiter d := by simp [isDelimiter]
  have hchars : (x ++ " " ++ y).toList = x.toList ++ ' ' :: y.toList := by simp
  rw [lex, hchars, lexFrom_append htext hrest, lexFrom_space, byteLength_toList, Nat.add_assoc,
    lexFrom_add]
  rfl

theorem exists_symbols_of_readForest (hx : readForest x = .ok earlier) :
    ∃ symbols, (lex x).symbols? = some symbols ∧
      Forest.reader.accept .start symbols = .ok earlier :=
  (Reader.read_eq_ok_iff Forest.reader x earlier).1 hx

/-- The second text is read from the state `last` that the first ends in. -/
structure ContinuesFrom (x y : String) (earlier : Forest) (last : Forest.State) : Prop where
  finish : last.finish = .ok earlier
  grouped? : last.grouped? = (lex x).head?.map Symbol.opensGroup
  readForest_eq : readForest (x ++ " " ++ y) =
    (Forest.reader.run last ((lex y).shift (x.utf8ByteSize + 1))).1.mapError (⟨x ++ " " ++ y, ·⟩)

theorem exists_continuesFrom (hx : readForest x = .ok earlier) (hy : readForest y = .ok later) :
    ∃ last, ContinuesFrom x y earlier last := by
  have hrun : (Forest.reader.run .start (lex x)).1 = .ok earlier := (mapError_eq_ok_iff _ _ _).1 hx
  have hlater : ∀ quote size,
      (lex y).shift (x.utf8ByteSize + 1) ≠ .unclosed quote size := by
    intro quote size heq
    obtain ⟨symbols, hsymbols, -⟩ := exists_symbols_of_readForest hy
    rw [← TokenStream.symbols?_shift (x.utf8ByteSize + 1), heq] at hsymbols
    contradiction
  obtain ⟨last, hfinish, hgrouped, hlast⟩ := run_append hrun hlater
  refine ⟨last, hfinish, hgrouped, ?_⟩
  rw [← hlast, ← lex_join hx]
  rfl

namespace ContinuesFrom

variable {last : Forest.State} {symbols : List Symbol}

theorem readForest_of_accept (h : ContinuesFrom x y earlier last)
    (hsymbols : (lex y).symbols? = some symbols) {forest : Forest}
    (haccept : Forest.reader.accept last symbols = .ok forest) :
    readForest (x ++ " " ++ y) = .ok forest := by
  rw [h.readForest_eq, mapError_eq_ok_iff, Reader.run_eq_ok_iff]
  · exact haccept
  · rw [TokenStream.symbols?_shift, hsymbols]

theorem beginsGroup_eq (h : ContinuesFrom x y earlier last) :
    beginsGroup x = last.grouped?.getD false := by
  rw [h.grouped?, beginsGroup]
  cases (lex x).head? <;> rfl

theorem eq_start (h : ContinuesFrom x y earlier last) (hnone : (lex x).head? = none) :
    last = .start := by
  have hgrouped := h.grouped?
  rw [hnone] at hgrouped
  rcases finish_cases h.finish with ⟨rfl, -⟩ | ⟨groups, rfl, -⟩ | ⟨present, rfl, -⟩
  · rfl
  · contradiction
  · contradiction

theorem exists_groups (h : ContinuesFrom x y earlier last) (hx : beginsGroup x) :
    ∃ groups, last = .groups groups ∧ earlier = groups.reverse := by
  rw [h.beginsGroup_eq] at hx
  rcases finish_cases h.finish with ⟨rfl, -⟩ | hgroups | ⟨present, rfl, -⟩
  · contradiction
  · exact hgroups
  · contradiction

theorem exists_object (h : ContinuesFrom x y earlier last) (hx : ¬ beginsGroup x) :
    ∃ present, earlier = [.object present] := by
  rw [h.beginsGroup_eq] at hx
  rcases finish_cases h.finish with ⟨-, rfl⟩ | ⟨groups, rfl, -⟩ | ⟨present, -, rfl⟩
  · exact ⟨.nil, rfl⟩
  · exact absurd rfl hx
  · exact ⟨present, rfl⟩

/-- Fields join one by one, which is merging if the second text has no two under one name. -/
theorem readForest_fields {present : Fields Generator none}
    (h : ContinuesFrom x y [.object present] last) (hx : ¬ beginsGroup x) {members : Members}
    (hsymbols : (lex y).symbols? = some members.symbols)
    (haccept : Forest.reader.accept .start members.symbols = .ok later) :
    readForest (x ++ " " ++ y) = .ok [.object (present.addList members.entries)] ∧
      ((members.entries.map Prod.fst).Nodup → readForest (x ++ " " ++ y) = .ok
        [(Generator.object present).merge (.object (Fields.addList .nil members.entries))]) := by
  have hgrouped : last.grouped? ≠ some true := by
    intro hgroups
    simp [h.beginsGroup_eq, hgroups] at hx
  have hjoined := h.readForest_of_accept hsymbols (accept_members h.finish hgrouped haccept)
  refine ⟨hjoined, fun hnodup => ?_⟩
  rw [hjoined, Generator.merge_object, Fields.addList_eq_addAll hnodup]

theorem readForest_fault (h : ContinuesFrom x y earlier last)
    (hy : readForest y = .ok later) {token : Token} {rest : TokenStream}
    (hlex : lex y = .cons token rest) (hsome : (lex x).head? ≠ none)
    (hne : beginsGroup x ≠ beginsGroup y) :
    readForest (x ++ " " ++ y) =
      .error ⟨x ++ " " ++ y, ⟨.unexpectedInput, token.position + x.utf8ByteSize + 1⟩⟩ := by
  obtain ⟨symbols, hsymbols, -⟩ := exists_symbols_of_readForest hy
  obtain ⟨first, hhead⟩ := Option.ne_none_iff_exists'.1 hsome
  have hrest : (rest.shift (x.utf8ByteSize + 1)).symbols? ≠ none := by
    intro hnone
    rw [TokenStream.symbols?_shift] at hnone
    simp [hlex, TokenStream.symbols?, hnone] at hsymbols
  have htoken : token.symbol.opensGroup ≠ first.opensGroup := by
    rw [beginsGroup, beginsGroup, hhead, hlex] at hne
    exact Ne.symm hne
  have hrun := run_of_kind_ne h.finish (by rw [h.grouped?, hhead]; rfl)
    ⟨token.symbol, token.position + (x.utf8ByteSize + 1)⟩ hrest htoken
  rw [h.readForest_eq, hlex, TokenStream.shift, hrun, Nat.add_assoc]
  rfl

end ContinuesFrom

/-- Texts of both kinds, and of none, one after the other. -/
theorem readForest_join (hx : readForest x = .ok earlier) (hy : readForest y = .ok later) :
    ((lex x).head? = none → readForest (x ++ " " ++ y) = readForest y) ∧
    ((lex y).head? = none → readForest (x ++ " " ++ y) = readForest x) ∧
    (beginsGroup x → beginsGroup y → readForest (x ++ " " ++ y) = .ok (earlier ++ later)) ∧
    (¬ beginsGroup x → ¬ beginsGroup y →
      ∃ present other, earlier = [.object present] ∧ later = [.object other] ∧
        (∃ members : Members, (lex y).symbols? = some members.symbols) ∧
        ∀ members : Members, (lex y).symbols? = some members.symbols →
          readForest (x ++ " " ++ y) = .ok [.object (present.addList members.entries)] ∧
          ((members.entries.map Prod.fst).Nodup → readForest (x ++ " " ++ y) =
            .ok [(Generator.object present).merge (.object other)])) ∧
    (∀ token rest, lex y = .cons token rest → (lex x).head? ≠ none →
      beginsGroup x ≠ beginsGroup y → readForest (x ++ " " ++ y) =
        .error ⟨x ++ " " ++ y, ⟨.unexpectedInput, token.position + x.utf8ByteSize + 1⟩⟩) := by
  obtain ⟨last, hlast⟩ := exists_continuesFrom hx hy
  obtain ⟨symbols, hsymbols, haccept⟩ := exists_symbols_of_readForest hy
  have hhead := TokenStream.head?_of_symbols? hsymbols
  refine ⟨?_, ?_, ?_, ?_, ?_⟩
  · intro hnone
    rw [hy]
    exact hlast.readForest_of_accept hsymbols (hlast.eq_start hnone ▸ haccept)
  · intro hnone
    obtain rfl : symbols = [] := by simpa [hhead] using hnone
    rw [hx]
    exact hlast.readForest_of_accept hsymbols hlast.finish
  · intro hfirst hsecond
    rw [beginsGroup, hhead] at hsecond
    obtain ⟨groups, rfl, rfl⟩ := hlast.exists_groups hfirst
    exact hlast.readForest_of_accept hsymbols (accept_groups haccept hsecond groups)
  · intro hfirst hsecond
    rw [beginsGroup, hhead] at hsecond
    obtain ⟨present, rfl⟩ := hlast.exists_object hfirst
    obtain ⟨members, rfl⟩ := exists_members_of_accept haccept hsecond
    refine ⟨present, _, rfl, eq_of_accept_members haccept, ⟨members, hsymbols⟩, ?_⟩
    -- whichever members spell the text, they come to the same
    intro others hothers
    have hsame : members.symbols = others.symbols := Option.some.inj (hsymbols.symm.trans hothers)
    have hobject : Fields.addList .nil members.entries = Fields.addList .nil others.entries := by
      have hequal := eq_of_accept_members (hsame ▸ haccept)
      rw [eq_of_accept_members haccept] at hequal
      simpa using hequal
    rw [hobject]
    exact hlast.readForest_fields hfirst hothers (hsame ▸ haccept)
  · intro token rest hlex hsome hne
    exact hlast.readForest_fault hy hlex hsome hne

/-- A field that the second text repeats, where merging the two results would keep `a.c`, and a
group after a field. -/
theorem readForest_join_repeated :
    (∃ present other, readForest "a.c=:3" = .ok [.object present] ∧
      readForest "a=:1 a.b=:2" = .ok [.object other] ∧
      readForest ("a.c=:3" ++ " " ++ "a=:1 a.b=:2") =
        .ok [.object (present.addList
          [("a", .value (.integer 1)), ("a", .single "b" (.value (.integer 2)))])]) ∧
    (∃ earlier later, readForest "é=[a]" = .ok earlier ∧ readForest " {b=c}" = .ok later ∧
      readForest ("é=[a]" ++ " " ++ " {b=c}") =
        .error ⟨"é=[a]" ++ " " ++ " {b=c}", ⟨.unexpectedInput, 8⟩⟩) := by
  refine ⟨?_, ?_⟩
  · have hx : readForest "a.c=:3" =
        .ok [.single "a" (.single "c" (.value (.integer 3)))] := by cbv
    have hy : readForest "a=:1 a.b=:2" =
        .ok [.single "a" (.single "b" (.value (.integer 2)))] := by cbv
    obtain ⟨present, other, hpresent, hother, -, hjoin⟩ :=
      (readForest_join hx hy).2.2.2.1 (by cbv; simp) (by cbv; simp)
    have hmembers := hjoin (.cons "a" (.assign (.raw "1"))
      (.cons "a" (.path "b" (.assign (.raw "2"))) .nil)) (by cbv)
    exact ⟨present, other, hpresent ▸ hx, hother ▸ hy, hmembers.1⟩
  · have hx : readForest "é=[a]" =
        .ok [.single "é" (.array [.value (.string "a")])] := by cbv
    have hy : readForest " {b=c}" = .ok [.single "b" (.value (.string "c"))] := by cbv
    exact ⟨_, _, hx, hy, (readForest_join hx hy).2.2.2.2 ⟨.openBrace, 1⟩ _ (by cbv)
      (by cbv; simp) (by cbv; simp)⟩

end JsonShorthand
