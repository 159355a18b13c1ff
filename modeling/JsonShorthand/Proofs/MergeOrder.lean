import JsonShorthand.Forest
import JsonShorthand.Proofs.Trees

namespace JsonShorthand

variable {α : Type} {bound : Option String}

/-- The entries of a map in one of the orders in which they may come. -/
def Fields.Enumerates (fields : Fields α bound) (entries : List (String × α)) : Prop :=
  entries.Perm fields.toList

mutual

/-- Two objects are merged by adding the fields of the earlier and then those of the later one to an
empty object. -/
inductive Merges : Generator → Generator → Generator → Prop where
  | objects {earlier later merged : Fields Generator none}
    {first second : List (String × Generator)} (hfirst : earlier.Enumerates first)
    (hsecond : later.Enumerates second) (hadd : AddsList .nil (first ++ second) merged) :
    Merges (.object earlier) (.object later) (.object merged)
  | other {earlier later : Generator} (h : ¬ earlier.IsObject ∨ ¬ later.IsObject) :
    Merges earlier later later

inductive Adds : Fields Generator none → String → Generator → Fields Generator none → Prop where
  | fresh {fields : Fields Generator none} {name : String} {later : Generator}
    (h : fields.get? name = none) : Adds fields name later (fields.insert name later)
  | present {fields : Fields Generator none} {name : String} {earlier later merged : Generator}
    (h : fields.get? name = some earlier) (hmerge : Merges earlier later merged) :
    Adds fields name later (fields.insert name merged)

inductive AddsList :
    Fields Generator none → List (String × Generator) → Fields Generator none → Prop where
  | nil {fields : Fields Generator none} : AddsList fields [] fields
  | cons {fields next last : Fields Generator none} {name : String} {later : Generator}
    {entries : List (String × Generator)} (hadd : Adds fields name later next)
    (hrest : AddsList next entries last) : AddsList fields ((name, later) :: entries) last

end

namespace Fields

theorem add_eq_insert (fields : Fields Generator none) (name : String) (later : Generator) :
    fields.add name later = fields.insert name (mergeInto later (fields.get? name)) := by
  apply ext
  intro query
  by_cases hquery : query = name
  · subst hquery
    rw [get?_add_self, get?_insert_self]
    rfl
  · rw [get?_add_of_ne _ _ hquery, get?_insert_of_ne _ _ hquery]

/-- The fields of two objects, added in any order to an empty one, make the merged object. -/
theorem addList_append_of_enumerates {earlier later : Fields Generator none}
    {first second : List (String × Generator)} (hfirst : earlier.Enumerates first)
    (hsecond : later.Enumerates second) :
    addList .nil (first ++ second) = earlier.addAll later := by
  have hnodup : (second.map Prod.fst).Nodup :=
    (hsecond.map Prod.fst).nodup_iff.2 later.nodup_names
  rw [addList_append, addList_of_perm hfirst, addAll_eq_addList]
  exact storeList_perm mergeInto hsecond hnodup earlier

end Fields

mutual

theorem Merges.eq {earlier later merged : Generator} :
    Merges earlier later merged → merged = earlier.merge later
  | .objects hfirst hsecond hadd => by
    rw [AddsList.eq hadd, Fields.addList_append_of_enumerates hfirst hsecond,
      Generator.merge_object]
  | .other h => (Generator.merge_of_not_isObject h).symm

theorem Adds.eq {fields next : Fields Generator none} {name : String} {later : Generator} :
    Adds fields name later next → next = fields.add name later
  | .fresh h => by rw [Fields.add_eq_insert, h, Fields.mergeInto]
  | .present h hmerge => by rw [Fields.add_eq_insert, h, Fields.mergeInto, Merges.eq hmerge]

theorem AddsList.eq {fields last : Fields Generator none} {entries : List (String × Generator)} :
    AddsList fields entries last → last = fields.addList entries
  | .nil => rfl
  | .cons hadd hrest => by rw [AddsList.eq hrest, Adds.eq hadd, Fields.addList_cons]

end

theorem adds_add {fields : Fields Generator none} {name : String} {later : Generator}
    (h : ∀ earlier, fields.get? name = some earlier →
      Merges earlier later (earlier.merge later)) :
    Adds fields name later (fields.add name later) := by
  rw [Fields.add_eq_insert]
  cases hname : fields.get? name with
  | none => exact .fresh hname
  | some earlier => exact .present hname (h earlier hname)

theorem AddsList.append {fields next last : Fields Generator none}
    {entries others : List (String × Generator)} (h : AddsList fields entries next)
    (hothers : AddsList next others last) : AddsList fields (entries ++ others) last := by
  induction entries generalizing fields with
  | nil =>
    cases h
    exact hothers
  | cons entry entries ih =>
    cases h with
    | cons hadd hrest => exact .cons hadd (ih hrest)

theorem addsList_addList {entries : List (String × Generator)}
    (hnodup : (entries.map Prod.fst).Nodup) {fields : Fields Generator none}
    (h : ∀ entry ∈ entries, ∀ earlier, fields.get? entry.1 = some earlier →
      Merges earlier entry.2 (earlier.merge entry.2)) :
    AddsList fields entries (fields.addList entries) := by
  induction entries generalizing fields with
  | nil => exact .nil
  | cons entry entries ih =>
    obtain ⟨hother, hnodup⟩ := List.nodup_cons.1 hnodup
    obtain ⟨hentry, hentries⟩ := List.forall_mem_cons.1 h
    refine .cons (adds_add hentry) (ih hnodup fun other hmem earlier hget => ?_)
    have hne : other.1 ≠ entry.1 := by
      intro heq
      exact hother (List.mem_map.2 ⟨other, hmem, heq⟩)
    rw [Fields.get?_add_of_ne _ _ hne] at hget
    exact hentries other hmem earlier hget

theorem merges_of_not_isObject {earlier later : Generator}
    (h : ¬ earlier.IsObject ∨ ¬ later.IsObject) : Merges earlier later (earlier.merge later) := by
  rw [Generator.merge_of_not_isObject h]
  exact .other h

theorem merges_merge (earlier later : Generator) : Merges earlier later (earlier.merge later) := by
  induction later using Generator.induction generalizing earlier with
  | object later ih =>
    by_cases h : earlier.IsObject
    · obtain ⟨present, rfl⟩ := h
      have hfirst : AddsList .nil present.toList (Fields.addList .nil present.toList) :=
        addsList_addList present.nodup_names (by simp)
      have hsecond : AddsList present later.toList (present.addList later.toList) :=
        addsList_addList later.nodup_names fun entry hentry earlier _ =>
          ih entry.1 entry.2 (later.mem_toList_iff.1 hentry) earlier
      rw [Fields.addList_of_perm (List.Perm.refl _)] at hfirst
      rw [Generator.merge_object, Fields.addAll_eq_addList]
      exact .objects (List.Perm.refl _) (List.Perm.refl _) (hfirst.append hsecond)
    · exact merges_of_not_isObject (.inl h)
  | _ => exact merges_of_not_isObject (.inr nofun)

theorem adds_iff {fields next : Fields Generator none} {name : String} {later : Generator} :
    Adds fields name later next ↔ next = fields.add name later := by
  apply Iff.intro Adds.eq
  rintro rfl
  exact adds_add fun earlier _ => merges_merge earlier later

namespace Forest

/-- What a step does before any field is added. -/
inductive Move where
  | go (next : State)
  | fill (generator : Generator) (hole : Hole)

/-- A generator fills a hole, and the objects around it merge in any order. -/
inductive Fills : Generator → Hole → State → Prop where
  | group {generator : Generator} {earlier : List Generator} :
    Fills generator (.group earlier) (.groups (generator :: earlier))
  | field {generator : Generator} {present next : Fields Generator none} {name : String}
    (h : Adds present name generator next) : Fills generator (.field present name) (.fields next)
  | member {generator : Generator} {present next : Fields Generator none} {name : String}
    {outer : Hole} (h : Adds present name generator next) :
    Fills generator (.member present name outer) (.members next outer)
  | segment {generator : Generator} {fields : Fields Generator none} {name : String}
    {outer : Hole} {next : State} (h : Adds .nil name generator fields)
    (houter : Fills (.object fields) outer next) : Fills generator (.segment name outer) next
  | element {generator : Generator} {earlier : List Generator} {outer : Hole} :
    Fills generator (.element earlier outer) (.elements (generator :: earlier) outer)

theorem Fills.eq {generator : Generator} {hole : Hole} {next : State}
    (h : Fills generator hole next) : next = .fill generator hole := by
  induction h with
  | field h | member h => rw [h.eq, State.fill]
  | segment h _ ih =>
    rw [ih, h.eq]
    rfl
  | _ => rfl

theorem fills_fill (generator : Generator) (hole : Hole) :
    Fills generator hole (.fill generator hole) := by
  induction hole generalizing generator with
  | group earlier => exact .group
  | field present name => exact .field (adds_iff.2 rfl)
  | member present name outer => exact .member (adds_iff.2 rfl)
  | segment name outer ih => exact .segment (adds_iff.2 rfl) (ih (.single name generator))
  | element earlier outer => exact .element

namespace State

def moveValue (hole : Hole) : Symbol → Except Cause Move
  | .var name => .ok (.fill (.var name) hole)
  | .openBrace => (openObject hole).map .go
  | .openBracket => (openArray hole).map .go
  | symbol => symbol.scalar.map fun v => .fill (.value v) hole

/-- A step that fills a hole stops before that. -/
def move (state : State) (symbol : Symbol) (following : Option Symbol) : Except Cause Move :=
  match state, symbol with
  | members present outer, .closeBrace => .ok (.fill (.object present) outer)
  | elements earlier outer, .literal text =>
    if following = some .assign ∨ following = some .dot then
      (openTail (.segment text (.element earlier outer))).map .go
    else .ok (.fill (.value (.string text)) (.element earlier outer))
  | elements earlier outer, .closeBracket => .ok (.fill (.array earlier.reverse) outer)
  | elements earlier outer, symbol => moveValue (.element earlier outer) symbol
  | value hole, symbol => moveValue hole symbol
  | state, symbol => (state.step symbol following).map .go

end State

def Move.state : Move → State
  | go next => next
  | fill generator hole => .fill generator hole

inductive Move.LeadsTo : Move → State → Prop where
  | go {next : State} : LeadsTo (.go next) next
  | fill {generator : Generator} {hole : Hole} {next : State} (h : Fills generator hole next) :
    LeadsTo (.fill generator hole) next

theorem Move.leadsTo_iff {move : Move} {next : State} : move.LeadsTo next ↔ next = move.state := by
  apply Iff.intro
  · rintro (_ | h)
    · rfl
    · exact h.eq
  · rintro rfl
    cases move with
    | go next => exact .go
    | fill generator hole => exact .fill (fills_fill generator hole)

theorem map_state_map_go (result : Except Cause State) :
    (result.map Move.go).map Move.state = result := by
  cases result <;> rfl

theorem State.moveValue_map (hole : Hole) (symbol : Symbol) :
    (moveValue hole symbol).map Move.state = stepValue hole symbol := by
  cases symbol with
  | openBrace | openBracket => exact map_state_map_go _
  | literal text => rfl
  | raw text =>
    cases hraw : Value.ofRaw? text <;>
      simp [moveValue, stepValue, Symbol.scalar, hraw, Except.map, Move.state]
  | _ => rfl

theorem State.move_map (state : State) (symbol : Symbol) (following : Option Symbol) :
    (state.move symbol following).map Move.state = state.step symbol following := by
  cases state with
  | members present outer => cases symbol <;> first | rfl | exact map_state_map_go _
  | elements earlier outer =>
    cases symbol with
    | literal text =>
      rw [move, step]
      split
      · exact map_state_map_go _
      · rfl
    | closeBracket => rfl
    | _ =>
      rw [move, step]
      · exact moveValue_map (.element earlier outer) _
      all_goals simp
  | value hole => exact moveValue_map hole symbol
  | _ => exact map_state_map_go _

/-- Reading where every object that merges does so in any order. -/
inductive Runs : State → TokenStream → Except Fault Forest → Prop where
  | finished {state : State} {size : Nat} :
    Runs state (.finished size) (state.finish.mapError (⟨·, size⟩))
  | unclosed {state : State} {quote size : Nat} :
    Runs state (.unclosed quote size) (.error ⟨.unclosedString, quote⟩)
  | beforeUnclosed {state : State} {token : Token} {quote size : Nat} :
    Runs state (.cons token (.unclosed quote size)) (.error ⟨.unclosedString, quote⟩)
  | step {state next : State} {token : Token} {rest : TokenStream} {move : Move}
    {result : Except Fault Forest} (hrest : ∀ quote size, rest ≠ .unclosed quote size)
    (hmove : state.move token.symbol rest.head? = .ok move) (hnext : move.LeadsTo next)
    (h : Runs next rest result) : Runs state (.cons token rest) result
  | fault {state : State} {token : Token} {rest : TokenStream} {cause : Cause}
    (hrest : ∀ quote size, rest ≠ .unclosed quote size)
    (hmove : state.move token.symbol rest.head? = .error cause) :
    Runs state (.cons token rest) (.error ⟨cause, token.position⟩)

theorem step_of_move {state : State} {symbol : Symbol} {following : Option Symbol} {move : Move}
    (h : state.move symbol following = .ok move) :
    state.step symbol following = .ok move.state := by
  rw [← State.move_map, h]
  rfl

theorem step_of_move_error {state : State} {symbol : Symbol} {following : Option Symbol}
    {cause : Cause} (h : state.move symbol following = .error cause) :
    state.step symbol following = .error cause := by
  rw [← State.move_map, h]
  rfl

theorem Runs.eq {state : State} {stream : TokenStream} {result : Except Fault Forest}
    (h : Runs state stream result) : result = (reader.run state stream).1 := by
  induction h with
  | step hrest hmove hnext _ ih =>
    obtain rfl := Move.leadsTo_iff.1 hnext
    rw [ih, reader.run_cons_of_ok hrest (step_of_move hmove)]
  | fault hrest hmove => rw [reader.run_cons_of_error hrest (step_of_move_error hmove)]
  | _ => rfl

theorem runs_run (state : State) (stream : TokenStream) :
    Runs state stream (reader.run state stream).1 := by
  induction stream generalizing state with
  | finished size => exact .finished
  | unclosed quote size => exact .unclosed
  | cons token rest ih =>
    rcases rest.eq_unclosed_or with ⟨quote, size, rfl⟩ | hclosed
    · exact .beforeUnclosed
    · cases hmove : state.move token.symbol rest.head? with
      | ok move =>
        rw [reader.run_cons_of_ok hclosed (step_of_move hmove)]
        exact .step hclosed hmove (Move.leadsTo_iff.2 rfl) (ih move.state)
      | error cause =>
        rw [reader.run_cons_of_error hclosed (step_of_move_error hmove)]
        exact .fault hclosed hmove

end Forest

/-- What a text may be read as. -/
def ReadsAs (input : String) (result : Except ParseError Forest) : Prop :=
  ∃ outcome, Forest.Runs .start (lex input) outcome ∧ result = outcome.mapError (⟨input, ·⟩)

theorem readsAs_iff {input : String} {result : Except ParseError Forest} :
    ReadsAs input result ↔ result = readForest input := by
  apply Iff.intro
  · rintro ⟨outcome, hrun, rfl⟩
    rw [hrun.eq]
    rfl
  · rintro rfl
    exact ⟨_, Forest.runs_run .start (lex input), rfl⟩

end JsonShorthand
