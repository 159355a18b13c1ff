import Mathlib
import JsonShorthand.Document
import JsonShorthand.Proofs.Inlining

namespace JsonShorthand

theorem scalarReader_accept_some (v w : Value) (symbols : List Symbol) :
    Value.scalarReader.accept (some v) symbols = .ok w ↔ symbols = [] ∧ v = w := by
  cases symbols <;> simp [Reader.accept, Value.scalarReader]

theorem readScalar_eq_ok_iff (input : String) (v : Value) :
    readScalar input = .ok v ↔
      ∃ symbol, symbolsOf input.toList = some [symbol] ∧ symbol.scalar = .ok v := by
  unfold readScalar
  rw [Reader.read_eq_ok_iff]
  apply Iff.intro
  · intro h
    obtain ⟨symbols, hsymbols, hread⟩ := h
    cases symbols with
    | nil => simp [Reader.accept, Value.scalarReader] at hread
    | cons symbol rest =>
      obtain ⟨next, hstep, hrest⟩ := (Reader.accept_cons_eq_ok_iff _).1 hread
      cases hscalar : symbol.scalar with
      | error cause => simp [Value.scalarReader, hscalar, Except.map] at hstep
      | ok w =>
        obtain rfl : some w = next := by
          simpa [Value.scalarReader, hscalar, Except.map] using hstep
        obtain ⟨rfl, rfl⟩ := (scalarReader_accept_some w v rest).1 hrest
        exact ⟨symbol, hsymbols, hscalar⟩
  · intro h
    obtain ⟨symbol, hsymbol, hscalar⟩ := h
    refine ⟨[symbol], hsymbol, (Reader.accept_cons_eq_ok_iff _).2 ⟨some v, ?_, ?_⟩⟩
    · simp [Value.scalarReader, hscalar, Except.map]
    · exact (scalarReader_accept_some v v []).2 ⟨rfl, rfl⟩

namespace Grammar

theorem exists_term_of_scalar {symbol : Symbol} {v : Value} (h : symbol.scalar = .ok v) :
    ∃ term : Term, term.symbols = [symbol] ∧ term.levels = 0 ∧ term.denote = .value v ∧
      RawAccepted [symbol] := by
  cases symbol with
  | literal text =>
    obtain rfl : Value.string text = v := Except.ok.inj h
    exact ⟨.literal text, rfl, rfl, rfl, by simp [RawAccepted]⟩
  | raw text =>
    cases hraw : Value.ofRaw? text with
    | none => simp [Symbol.scalar, hraw] at h
    | some w =>
      obtain rfl : w = v := by simpa [Symbol.scalar, hraw] using h
      refine ⟨.raw text, rfl, rfl, ?_, ?_⟩
      · simp [Term.denote, hraw]
      · simp [RawAccepted, hraw]
  | _ => contradiction

theorem Term.exists_scalar {term : Term} {v : Value} (h : term.denote = .value v)
    (hraw : RawAccepted term.symbols) :
    ∃ symbol : Symbol, term.symbols = [symbol] ∧ symbol.scalar = .ok v := by
  cases term with
  | literal text =>
    obtain rfl := Generator.value.inj h
    exact ⟨.literal text, rfl, rfl⟩
  | var name => contradiction
  | raw text =>
    obtain ⟨w, hw⟩ := Option.isSome_iff_exists.1 (hraw text List.mem_cons_self)
    obtain rfl : w = v := by simpa [denote, hw] using h
    exact ⟨.raw text, rfl, by simp [Symbol.scalar, hw]⟩
  | group group => cases group <;> contradiction

theorem Elements.exists_term_of_denote {elements : Elements} {v : Value}
    (h : elements.denote = [.value v]) :
    ∃ term : Term, elements.symbols = term.symbols ∧ term.denote = .value v := by
  cases elements with
  | nil => contradiction
  | term value rest =>
    obtain ⟨hvalue, hrest⟩ := List.cons.inj h
    cases rest with
    | nil => exact ⟨value, List.append_nil _, hvalue⟩
    | _ => contradiction
  | field name tail rest => exact absurd (List.cons.inj h).1 nofun

theorem Text.exists_elements_of_denote {text : Text} {elements : List Generator}
    (h : text.denote = [.array elements]) :
    ∃ others : Elements, text = .groups (.array others) [] ∧ others.denote = elements := by
  cases text with
  | groups first rest =>
    obtain ⟨hfirst, hrest⟩ := List.cons.inj h
    obtain rfl := List.map_eq_nil_iff.1 hrest
    cases first with
    | object members => contradiction
    | array others => exact ⟨others, rfl, Generator.array.inj hfirst⟩
  | fields members => exact absurd (List.cons.inj h).1 nofun

end Grammar

open Grammar in
/-- A text is a scalar if and only if it is one in brackets. -/
theorem readScalar_iff_only_element (input : String) (v : Value) :
    readScalar input = .ok v ↔ readForest ("[" ++ input ++ "]") = .ok [.array [.value v]] := by
  have hlex : (lex ("[" ++ input ++ "]")).symbols? = (symbolsOf input.toList).map
      fun symbols => .openBracket :: (symbols ++ [.closeBracket]) := by
    rw [← symbolsOf_brackets, symbols?_lex]
    simp
  -- both sides tell what the one symbol between the brackets is
  rw [readScalar_eq_ok_iff, readForest_eq_ok_iff]
  apply Iff.intro
  · intro h
    obtain ⟨symbol, hsymbol, hscalar⟩ := h
    obtain ⟨term, hterm, hlevels, hdenote, hraw⟩ := exists_term_of_scalar hscalar
    rw [hsymbol] at hlex
    refine ⟨_, .groups (.array (.term term .nil)) [], hlex, ⟨?_, ?_, ?_⟩, ?_⟩
    · simp [Text.symbols, Group.symbols, Elements.symbols, hterm]
    · have hclose : RawAccepted [.closeBracket] := by simp [RawAccepted]
      exact rawAccepted_cons_iff.2 ⟨by simp, rawAccepted_append_iff.2 ⟨hraw, hclose⟩⟩
    · simp [Text.levels, levelsOfGroups, Group.levels, Elements.levels, hlevels, nestingLimit]
    · simp [Text.denote, Group.denote, Elements.denote, hdenote]
  · intro h
    obtain ⟨symbols, text, hsymbols, ⟨rfl, hraw, -⟩, hdenote⟩ := h
    obtain ⟨elements, rfl, helements⟩ := Text.exists_elements_of_denote hdenote
    obtain ⟨term, hterm, hvalue⟩ := Elements.exists_term_of_denote helements
    have hwhole : (Text.groups (.array elements) []).symbols =
        .openBracket :: (term.symbols ++ [.closeBracket]) := by
      simp [Text.symbols, Group.symbols, hterm]
    rw [hwhole] at hsymbols hraw
    obtain ⟨symbol, hsymbol, hscalar⟩ := term.exists_scalar hvalue
      fun text h => hraw text (List.mem_cons_of_mem _ (List.mem_append_left _ h))
    obtain ⟨inner, hinner, heq⟩ := Option.map_eq_some_iff.1 (hlex.symm.trans hsymbols)
    refine ⟨symbol, ?_, hscalar⟩
    rw [hinner, List.append_cancel_right (List.cons.inj heq).2, hsymbol]

/-- A substitution is a name without an `=` in it, an `=` and a scalar. -/
theorem readSubstitution_eq_ok_iff {argument name : String} {v : Value} :
    readSubstitution argument = .ok (name, v) ↔
      ∃ text, argument = name ++ "=" ++ text ∧ name ≠ "" ∧ '=' ∉ name.toList ∧
        readScalar text = .ok v := by
  constructor
  · intro h
    have hsplit := List.takeWhile_append_dropWhile (p := (· ≠ '=')) (l := argument.toList)
    have hname : '=' ∉ argument.toList.takeWhile (· ≠ '=') := fun hmem => by
      simpa using List.all_eq_true.1 List.all_takeWhile '=' hmem
    have hhead := List.head?_dropWhile_not (· ≠ '=') argument.toList
    unfold readSubstitution at h
    generalize argument.toList.takeWhile (· ≠ '=') = first at h hsplit hname
    generalize argument.toList.dropWhile (· ≠ '=') = after at h hsplit hhead
    cases after with
    | nil => simp at h
    | cons c text =>
      obtain rfl : c = '=' := by simpa using hhead
      by_cases hfirst : first = []
      · simp [hfirst] at h
      · cases hread : readScalar (.ofList text) with
        | error error => simp [hfirst, hread] at h
        | ok w =>
          obtain ⟨rfl, rfl⟩ : String.ofList first = name ∧ w = v := by
            simpa [hfirst, hread] using h
          refine ⟨.ofList text, ?_, ?_, ?_, hread⟩
          · apply String.toList_injective
            simp [← hsplit]
          · simpa using hfirst
          · simpa using hname
  · rintro ⟨text, rfl, hne, hname, hread⟩
    have hargument : (name ++ "=" ++ text).toList = name.toList ++ '=' :: text.toList := by simp
    have hbody : ∀ d ∈ name.toList, decide (d ≠ '=') := by
      intro d hd
      simpa using ne_of_mem_of_not_mem hd hname
    have hstop : ∀ d, ('=' :: text.toList).head? = some d → ¬ decide (d ≠ '=') := by simp
    obtain ⟨htake, hdrop⟩ := span_append_of_stop hbody hstop
    rw [readSubstitution, hargument, htake, hdrop]
    simp [hne, hread]

theorem readScalar_of_readSubstitution {name value : String} {v : Value}
    (h : readSubstitution (name ++ "=" ++ value) = .ok (name, v)) : readScalar value = .ok v := by
  obtain ⟨text, heq, -, -, hread⟩ := readSubstitution_eq_ok_iff.1 h
  obtain rfl : value = text := (String.append_right_inj _).1 heq
  exact hread

theorem Bindings.addSubstitutions_append (bindings : Bindings) (arguments others : List String) :
    addSubstitutions bindings (arguments ++ others) =
      (addSubstitutions bindings arguments).bind fun more => addSubstitutions more others := by
  induction arguments generalizing bindings with
  | nil => rfl
  | cons argument arguments ih =>
    cases hread : readSubstitution argument with
    | ok binding => simp [addSubstitutions, hread, ih]
    | error error => simp [addSubstitutions, hread, Except.bind]

theorem Bindings.ofSubstitutions_append {argument name : String} {v : Value}
    (h : readSubstitution argument = .ok (name, v)) (substitutions : List String) :
    ofSubstitutions (substitutions ++ [argument]) =
      (ofSubstitutions substitutions).map fun bindings => bindings.insert name v := by
  unfold ofSubstitutions
  rw [addSubstitutions_append]
  cases addSubstitutions .nil substitutions with
  | ok bindings => simp [Except.bind, Except.map, addSubstitutions, h]
  | error error => rfl

namespace Grammar

/-- A text in which a scalar stands for a variable is read as the forest with its value in the place
of the variable. -/
theorem readForest_inline {input name : String} {value : List Char} {forest : Forest}
    (hread : readForest input = .ok forest) {symbol : Symbol} {v : Value}
    (hvalue : symbolsOf value = some [symbol]) (hscalar : symbol.scalar = .ok v) :
    readForest (.ofList (inline name value input.toList)) =
      .ok (forest.map (Generator.instantiate name v)) := by
  obtain ⟨term, hsymbols, hlevels, hdenote, hraw⟩ := exists_term_of_scalar hscalar
  obtain ⟨symbols, text, hlex, ⟨rfl, hraws, hlimit⟩, rfl⟩ := (readForest_eq_ok_iff _ _).1 hread
  -- in the derivation the term of the value takes the place of the variable
  let f : String → Term := fun other => if other = name then term else .var other
  have hf (other : String) : f other = if other = name then term else .var other := rfl
  have hspells : SpellsVars f (Symbol.instead name symbol) := by
    refine ⟨fun other => ?_, fun other h => if_neg (h name)⟩
    rw [hf, Symbol.instead]
    by_cases hother : other = name <;> simp [hother, hsymbols, Term.symbols]
  have hflat (other : String) : (f other).levels = 0 := by
    rw [hf]
    by_cases hother : other = name <;> simp [hother, hlevels, Term.levels]
  have hinstead : DenotesVars f name v := by
    intro other
    rw [hf, Generator.instantiate]
    by_cases hother : other = name <;> simp [hother, hdenote, Term.denote]
  apply (readForest_eq_ok_iff _ _).2
  refine ⟨_, text.inline f, ?_, ⟨text.symbols_inline hspells, ?_, ?_⟩, text.denote_inline hinstead⟩
  · rw [symbols?_lex] at hlex ⊢
    rw [String.toList_ofList, symbolsOf_inline name value hvalue, hlex, Option.map_some]
  -- a raw literal was there before, or it is the value
  · intro body hbody
    obtain ⟨other, hother, heq⟩ := List.mem_map.1 hbody
    by_cases hname : other = .var name
    · rw [hname, Symbol.instead, if_pos rfl] at heq
      exact hraw body (heq ▸ List.mem_cons_self)
    · rw [Symbol.instead, if_neg hname] at heq
      exact hraws body (heq ▸ hother)
  · rw [text.levels_inline hflat]
    exact hlimit

end Grammar

theorem Forest.evaluate_instantiate (bindings : Bindings) (name : String) (v : Value)
    (forest : Forest) :
    Forest.evaluate bindings (forest.map (Generator.instantiate name v)) =
      forest.evaluate (bindings.insert name v) := by
  unfold evaluate
  rw [List.map_map]
  congr 1
  funext generator
  exact generator.evaluate_instantiate name v bindings

theorem Job.text_singleton (input : String) (substitutions : List String) (pretty : Bool) :
    (Job.mk [input] substitutions pretty).text = input := by
  simp [text]

/-- A last substitution is inlining: the text in which its value stands for its variable is read as
the same forest but for the variable, and has the same values and documents under the others. -/
theorem substitution_is_inlining {input name value : String} {v : Value} {forest : Forest}
    (hread : readForest input = .ok forest)
    (hargument : readSubstitution (name ++ "=" ++ value) = .ok (name, v)) :
    let inlined := String.ofList (inline name value.toList input.toList)
    readForest inlined = .ok (forest.map (Generator.instantiate name v)) ∧
      ∀ substitutions : List String,
        (∀ bindings, Bindings.ofSubstitutions substitutions = .ok bindings →
          ∃ more, Bindings.ofSubstitutions (substitutions ++ [name ++ "=" ++ value]) = .ok more ∧
            Forest.evaluate bindings (forest.map (Generator.instantiate name v)) =
              forest.evaluate more) ∧
        ∀ pretty, (Job.mk [inlined] substitutions pretty).documents =
          (Job.mk [input] (substitutions ++ [name ++ "=" ++ value]) pretty).documents := by
  intro inlined
  obtain ⟨symbol, hvalue, hscalar⟩ :=
    (readScalar_eq_ok_iff _ _).1 (readScalar_of_readSubstitution hargument)
  have hinlined : readForest inlined = .ok (forest.map (Generator.instantiate name v)) :=
    Grammar.readForest_inline hread hvalue hscalar
  refine ⟨hinlined, fun substitutions => ⟨?_, ?_⟩⟩
  · intro bindings hbindings
    refine ⟨bindings.insert name v, ?_, Forest.evaluate_instantiate bindings name v forest⟩
    rw [Bindings.ofSubstitutions_append hargument, hbindings]
    rfl
  · intro pretty
    unfold Job.documents
    rw [if_neg (List.cons_ne_nil _ _), if_neg (List.cons_ne_nil _ _), Job.text_singleton,
      Job.text_singleton, hinlined, hread, Bindings.ofSubstitutions_append hargument]
    cases Bindings.ofSubstitutions substitutions with
    | error error => rfl
    | ok bindings =>
      simp only [Except.map, Forest.evaluate_instantiate]
      rfl

theorem substitution_is_inlining_element :
    readForest "a=[ :1  $y]" = .ok [.single "a" (.array [.value (.integer 1), .var "y"])] ∧
      (Job.mk ["a=[ :1  $y]"] ["y=on"] false).documents =
        (Job.mk ["a=[$x $y]"] ["y=on", "x=:1"] false).documents := by
  have hlex : (lex "a=[$x $y]").symbols? = some [.literal "a", .assign, .openBracket, .var "x",
    .var "y", .closeBracket] := by cbv
  have hraws : Grammar.RawAccepted [.literal "a", .assign, .openBracket, .var "x", .var "y",
      .closeBracket] := by
    simp [Grammar.RawAccepted]
  have hderives : Grammar.Derives nestingLimit _ (.fields (.cons "a" (.assign (.group (.array
      (.term (.var "x") (.term (.var "y") .nil))))) .nil)) :=
    ⟨rfl, hraws, by decide⟩
  have hread := (Grammar.readForest_eq_ok_iff _ _).2 ⟨_, _, hlex, hderives, rfl⟩
  have hargument : readSubstitution ("x" ++ "=" ++ ":1") = .ok ("x", .integer 1) := by cbv
  have htext : String.ofList (inline "x" ":1".toList "a=[$x $y]".toList) = "a=[ :1  $y]" := by
    decide +kernel
  have hinline := substitution_is_inlining hread hargument
  rw [htext] at hinline
  exact ⟨hinline.1, (hinline.2 ["y=on"]).2 false⟩

end JsonShorthand
