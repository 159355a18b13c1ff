import JsonShorthand.Proofs.Documents
import JsonShorthand.Proofs.JsonPlaces
import JsonShorthand.Proofs.JsonRoundTrip

namespace JsonShorthand

namespace Substitutions

def Accepted (arguments : List String) : Prop :=
  ∀ argument ∈ arguments, ∃ name v, readSubstitution argument = .ok (name, v)

def valuesFor (name : String) (arguments : List String) : List Value :=
  arguments.filterMap fun argument =>
    match readSubstitution argument with
    | .ok (other, v) => if other = name then some v else none
    | .error _ => none

/-- The value of the last argument for a name. -/
def lastFor? (name : String) (arguments : List String) : Option Value :=
  (valuesFor name arguments).getLast?

variable {name other argument : String} {v : Value} {arguments before after : List String}

theorem valuesFor_cons (h : readSubstitution argument = .ok (other, v)) (name : String)
    (arguments : List String) :
    valuesFor name (argument :: arguments) =
      (if other = name then [v] else []) ++ valuesFor name arguments := by
  by_cases hname : other = name <;> simp [valuesFor, h, hname]

theorem lastFor?_append (name : String) (before after : List String) :
    lastFor? name (before ++ after) = (lastFor? name after).or (lastFor? name before) := by
  rw [lastFor?, valuesFor, List.filterMap_append, List.getLast?_append]
  rfl

theorem lastFor?_cons (h : readSubstitution argument = .ok (other, v)) (name : String)
    (arguments : List String) :
    lastFor? name (argument :: arguments) =
      (lastFor? name arguments).or (if other = name then some v else none) := by
  rw [lastFor?, valuesFor_cons h, List.getLast?_append]
  split <;> rfl

theorem lastFor?_drop (h : readSubstitution argument = .ok (other, v))
    (hname : other = name → valuesFor name after ≠ []) :
    lastFor? name (before ++ argument :: after) = lastFor? name (before ++ after) := by
  rw [lastFor?_append, lastFor?_append, lastFor?_cons h]
  by_cases heq : other = name
  · obtain ⟨w, hw⟩ := Option.isSome_iff_exists.1 (List.getLast?_isSome.2 (hname heq))
    have hlast : lastFor? name after = some w := hw
    rw [hlast, Option.some_or]
  · rw [if_neg heq, Option.or_none]

theorem Accepted.append (hbefore : Accepted before) (hafter : Accepted after) :
    Accepted (before ++ after) := List.forall_mem_append.2 ⟨hbefore, hafter⟩

theorem Accepted.cons (h : readSubstitution argument = .ok (name, v))
    (harguments : Accepted arguments) : Accepted (argument :: arguments) :=
  List.forall_mem_cons.2 ⟨⟨name, v, h⟩, harguments⟩

end Substitutions

open Substitutions

theorem Bindings.exists_addSubstitutions {arguments : List String} (h : Accepted arguments)
    (bindings : Bindings) :
    ∃ more, bindings.addSubstitutions arguments = .ok more ∧
      ∀ name, more.get? name = (lastFor? name arguments).or (bindings.get? name) := by
  induction arguments generalizing bindings with
  | nil => exact ⟨bindings, rfl, fun name => rfl⟩
  | cons argument arguments ih =>
    obtain ⟨⟨other, v, hread⟩, harguments⟩ := List.forall_mem_cons.1 h
    obtain ⟨more, hmore, hget⟩ := ih harguments (bindings.insert other v)
    refine ⟨more, by rw [addSubstitutions, hread]; exact hmore, fun name => ?_⟩
    rw [hget, lastFor?_cons hread, Option.or_assoc]
    by_cases hname : other = name
    · subst hname
      rw [Fields.get?_insert_self, if_pos rfl, Option.some_or]
    · rw [Fields.get?_insert_of_ne _ _ (Ne.symm hname), if_neg hname, Option.none_or]

theorem Bindings.exists_ofSubstitutions {arguments : List String} (h : Accepted arguments) :
    ∃ bindings, ofSubstitutions arguments = .ok bindings ∧
      ∀ name, bindings.get? name = lastFor? name arguments := by
  obtain ⟨bindings, hbindings, hget⟩ := exists_addSubstitutions h .nil
  refine ⟨bindings, hbindings, fun name => ?_⟩
  rw [hget, Fields.get?_nil, Option.or_none]

namespace Generator

variable {bindings others : Bindings}

theorem inJson_evaluate_object_eq_iff {fields : Fields Generator none} :
    ((object fields).evaluate bindings).inJson = ((object fields).evaluate others).inJson ↔
      ∀ name generator, fields.get? name = some generator →
        (generator.evaluate bindings).inJson = (generator.evaluate others).inJson := by
  rw [evaluate, evaluate, evaluateFields_eq_map, evaluateFields_eq_map,
    Value.inJson_object_eq_iff]
  apply forall_congr'
  intro name
  cases hget : fields.get? name <;> simp [hget]

theorem inJson_evaluate_array_eq_iff {elements : List Generator} :
    ((array elements).evaluate bindings).inJson = ((array elements).evaluate others).inJson ↔
      ∀ generator ∈ elements,
        (generator.evaluate bindings).inJson = (generator.evaluate others).inJson := by
  rw [evaluate, evaluate, evaluateElements_eq_map, evaluateElements_eq_map, Value.inJson_array,
    Value.inJson_array, Value.array.injEq, List.map_map, List.map_map, List.map_inj_left]
  rfl

/-- A value shows what the variables in its generator stand for, and nothing else of the bindings.
An object shows what its fields do, and an array what its elements do. -/
theorem inJson_evaluate_eq_iff (generator : Generator) :
    (generator.evaluate bindings).inJson = (generator.evaluate others).inJson ↔
      ∀ name, .var name ∈ generator.leaves →
        ((bindings.get? name).getD .null).inJson = ((others.get? name).getD .null).inJson := by
  induction generator using induction with
  | value v => simp [evaluate, leaves]
  | var name => simp [evaluate, leaves]
  | object fields ih =>
    rw [inJson_evaluate_object_eq_iff]
    constructor
    · intro h name hname
      obtain ⟨field, generator, hget, hleaf⟩ := mem_leaves_object_iff.1 hname
      exact (ih field generator hget).1 (h field generator hget) name hleaf
    · intro h field generator hget
      refine (ih field generator hget).2 fun name hname => h name ?_
      exact mem_leaves_object_iff.2 ⟨field, generator, hget, hname⟩
  | array elements ih =>
    rw [inJson_evaluate_array_eq_iff, leaves, leavesOfElements_eq]
    constructor
    · intro h name hname
      obtain ⟨generator, hgenerator, hleaf⟩ := List.mem_flatMap.1 hname
      exact (ih generator hgenerator).1 (h generator hgenerator) name hleaf
    · intro h generator hgenerator
      refine (ih generator hgenerator).2 fun name hname => h name ?_
      exact List.mem_flatMap.2 ⟨generator, hgenerator, hname⟩

end Generator

theorem Value.toPrettyJson_eq_iff {v w : Value} :
    v.toPrettyJson = w.toPrettyJson ↔ v.inJson = w.inJson := by
  constructor
  · intro h
    have hpretty : v.prettyAt 0 = w.prettyAt 0 := String.ofList_injective h
    have hcompact := (v.shortens_prettyAt 0).unique (hpretty ▸ w.shortens_prettyAt 0)
    exact toJson_eq_iff.1 (congrArg String.ofList hcompact)
  · intro h
    rw [← toPrettyJson_inJson v, h, toPrettyJson_inJson]

theorem Job.render_eq_iff (job : Job) {v w : Value} :
    job.render v = job.render w ↔ v.inJson = w.inJson := by
  unfold render
  split
  · exact Value.toPrettyJson_eq_iff
  · exact Value.toJson_eq_iff

def HasVariable (text name : String) : Prop :=
  ∃ forest, readForest text = .ok forest ∧ ∃ generator ∈ forest, .var name ∈ generator.leaves

/-- The name of a variable among the tokens of some text. -/
def IsSpelled (name : String) : Prop :=
  ∃ text position, .token ⟨.var name, position⟩ ∈ (lex text).toList

theorem isSpelled_iff_isUndelimited {name : String} :
    IsSpelled name ↔ IsUndelimited name.toList := by
  constructor
  · rintro ⟨text, position, hmem⟩
    obtain ⟨source, hwritten⟩ := exists_written_of_mem_lexFrom hmem
    exact isUndelimited_of_written hwritten
  · intro h
    have hends : Lexeme.Ends '$' [] := nofun
    have hscan := Lexeme.scan?_of_written (.var h) hends
    rw [List.append_nil] at hscan
    refine ⟨.ofList ('$' :: name.toList), 1, ?_⟩
    rw [lex, String.toList_ofList, lexFrom_of_scan? (by decide) hscan]
    exact List.mem_cons_self

/-- A name that a substitution can give is spelled unless a space, a tab, a line end or a bracket is
in it. -/
theorem isSpelled_iff_of_readSubstitution {argument name : String} {v : Value}
    (h : readSubstitution argument = .ok (name, v)) :
    IsSpelled name ↔ ∀ c ∈ [' ', '\t', '\n', '{', '}', '[', ']'], c ∉ name.toList := by
  obtain ⟨-, -, -, hassign, -⟩ := readSubstitution_eq_ok_iff.1 h
  have hdelimiter (d : Char) :
      isDelimiter d ↔ d ∈ [' ', '\t', '\n', '{', '}', '[', ']'] ∨ d = '=' := by
    simp [isDelimiter, or_assoc]
  rw [isSpelled_iff_isUndelimited, IsUndelimited]
  constructor
  · intro hname c hc hmem
    exact hname c hmem ((hdelimiter c).2 (.inl hc))
  · intro hname d hmem hd
    rcases (hdelimiter d).1 hd with hd | rfl
    · exact hname d hd hmem
    · exact hassign hmem

namespace HasVariable

variable {text name : String}

theorem iff_of_readForest {forest : Forest} (h : readForest text = .ok forest) :
    HasVariable text name ↔ ∃ generator ∈ forest, .var name ∈ generator.leaves := by
  simp [HasVariable, h]

theorem isSpelled (h : HasVariable text name) : IsSpelled name := by
  obtain ⟨forest, hread, generator, hgenerator, hleaf⟩ := h
  exact isSpelled_iff_isUndelimited.2
    ((wellFormed_of_readForest hread generator hgenerator).isUndelimited hleaf)

end HasVariable

theorem not_hasVariable_empty (name : String) : ¬ HasVariable "" name := by
  have hread : readForest "" = .ok [.object .nil] := by cbv
  simp [HasVariable.iff_of_readForest hread, Generator.leaves, Generator.leavesOfFields]

theorem Forest.map_render_evaluate_eq_iff (job : Job) {bindings others : Bindings}
    (forest : Forest) :
    (forest.evaluate bindings).map job.render = (forest.evaluate others).map job.render ↔
      ∀ name, (∃ generator ∈ forest, .var name ∈ generator.leaves) →
        ((bindings.get? name).getD .null).toJson = ((others.get? name).getD .null).toJson := by
  -- a forest has the variables of the array of its generators, and shows as much of them
  have hleaves (name : String) : (∃ generator ∈ forest, .var name ∈ generator.leaves) ↔
      .var name ∈ (Generator.array forest).leaves := by
    rw [Generator.leaves, Generator.leavesOfElements_eq, List.mem_flatMap]
  simp only [evaluate, List.map_map, List.map_inj_left, Function.comp_apply, job.render_eq_iff,
    hleaves, Value.toJson_eq_iff]
  rw [← Generator.inJson_evaluate_array_eq_iff]
  exact Generator.inJson_evaluate_eq_iff (.array forest)

/-- Documents tell two lists of substitutions apart by the last values of the variables that are
left. -/
theorem Job.documents_eq_documents_iff {expressions arguments others : List String} {pretty : Bool}
    (harguments : Accepted arguments) (hothers : Accepted others) :
    (mk expressions arguments pretty).documents = (mk expressions others pretty).documents ↔
      ∀ name, HasVariable (" ".intercalate expressions) name →
        ((lastFor? name arguments).getD .null).toJson =
          ((lastFor? name others).getD .null).toJson := by
  obtain ⟨bindings, hbindings, hget⟩ := Bindings.exists_ofSubstitutions harguments
  obtain ⟨more, hmore, hget'⟩ := Bindings.exists_ofSubstitutions hothers
  simp only [← hget, ← hget']
  unfold documents text
  by_cases hne : expressions = []
  -- without expressions substitutions are not looked at, and there is no variable either
  · subst hne
    exact ⟨fun _ name hname => absurd hname (not_hasVariable_empty name), fun _ => rfl⟩
  · rw [if_neg hne, if_neg hne, hbindings, hmore]
    cases hread : readForest (" ".intercalate expressions) with
    | error error => simp [HasVariable, hread]
    | ok forest =>
      simp only [Except.ok.injEq, HasVariable.iff_of_readForest hread]
      exact forest.map_render_evaluate_eq_iff (mk expressions arguments pretty)

/-- Documents depend on substitutions only through the last value for each variable that is left
after merging, and they tell two such values apart just if their JSON texts differ. So it matters
neither in which order the arguments for different names come, nor whether there is an argument that
a later one for its name follows, one for a variable that merging has overwritten, or one for a name
with a space, a tab, a line end or a bracket in it, which no variable can have. -/
theorem documents_noninterference (expressions : List String) (pretty : Bool) :
    let text := " ".intercalate expressions
    let documents (arguments : List String) := (Job.mk expressions arguments pretty).documents
    (∀ arguments others, Accepted arguments → Accepted others →
      (∀ name, HasVariable text name → lastFor? name arguments = lastFor? name others) →
        documents arguments = documents others) ∧
    (∀ arguments others, Accepted arguments → Accepted others →
      (documents arguments = documents others ↔ ∀ name, HasVariable text name →
        ((lastFor? name arguments).getD .null).toJson =
          ((lastFor? name others).getD .null).toJson)) ∧
    (∀ arguments others, Accepted arguments → Accepted others →
      (∀ name, valuesFor name arguments = valuesFor name others) →
        documents arguments = documents others) ∧
    (∀ before argument after name v, Accepted before → Accepted after →
      readSubstitution argument = .ok (name, v) →
      (valuesFor name after ≠ [] ∨ ¬ HasVariable text name ∨ ¬ IsSpelled name) →
        documents (before ++ argument :: after) = documents (before ++ after)) ∧
    ∀ argument name v, readSubstitution argument = .ok (name, v) →
      (IsSpelled name ↔ ∀ c ∈ [' ', '\t', '\n', '{', '}', '[', ']'], c ∉ name.toList) := by
  intro text documents
  -- the last values for the variables that are left settle the documents
  have hlast (arguments others : List String) (harguments : Accepted arguments)
      (hothers : Accepted others)
      (h : ∀ name, HasVariable text name → lastFor? name arguments = lastFor? name others) :
      documents arguments = documents others := by
    apply (Job.documents_eq_documents_iff harguments hothers).2
    intro name hname
    rw [h name hname]
  refine ⟨hlast, fun arguments others => Job.documents_eq_documents_iff, ?_, ?_,
    fun argument name v => isSpelled_iff_of_readSubstitution⟩
  · intro arguments others harguments hothers h
    exact hlast _ _ harguments hothers fun name _ => congrArg List.getLast? (h name)
  · intro before argument after name v hbefore hafter hread hidle
    apply hlast _ _ (hbefore.append (hafter.cons hread)) (hbefore.append hafter)
    intro other hother
    apply lastFor?_drop hread
    rintro rfl
    rcases hidle with hlater | hnone | hnone
    · exact hlater
    · exact absurd hother hnone
    · exact absurd hother.isSpelled hnone

/-- The variable `x` is overwritten, `y` has two values, and no variable is called `a b`. -/
theorem documents_noninterference_overwritten :
    let arguments := ["x=1", "y=2", "a b=3", "y=:4"]
    let others := ["y=:4", "x=2"]
    let documents (arguments : List String) :=
      (Job.mk ["a.b=$x", "a=[$y]"] arguments false).documents
    Accepted arguments ∧ Accepted others ∧ documents arguments = documents others ∧
      documents others = .ok ["\x7b\"a\":[4]\x7d"] := by
  intro arguments others documents
  have htext : " ".intercalate ["a.b=$x", "a=[$y]"] = "a.b=$x a=[$y]" := by decide
  have hread : readForest "a.b=$x a=[$y]" = .ok [.single "a" (.array [.var "y"])] := by cbv
  have hx : readSubstitution "x=1" = .ok ("x", .string "1") := by cbv
  have hx' : readSubstitution "x=2" = .ok ("x", .string "2") := by cbv
  have hy : readSubstitution "y=2" = .ok ("y", .string "2") := by cbv
  have hy' : readSubstitution "y=:4" = .ok ("y", .integer 4) := by cbv
  have hspace : readSubstitution "a b=3" = .ok ("a b", .string "3") := by cbv
  have hnil : Accepted [] := List.forall_mem_nil _
  have harguments : Accepted arguments := .cons hx (.cons hy (.cons hspace (.cons hy' hnil)))
  have hothers : Accepted others := .cons hy' (.cons hx' hnil)
  have hdocuments : (Job.mk ["a.b=$x", "a=[$y]"] ["y=:4", "x=2"] false).documents =
      .ok ["\x7b\"a\":[4]\x7d"] := by cbv
  refine ⟨harguments, hothers, ?_, hdocuments⟩
  apply (documents_noninterference _ false).1 arguments others harguments hothers
  intro name hname
  rw [htext, HasVariable.iff_of_readForest hread] at hname
  obtain rfl : name = "y" := by
    simpa [Grammar.leaves_single, Generator.leaves, Generator.leavesOfElements] using hname
  simp [arguments, others, lastFor?_cons hx, lastFor?_cons hx', lastFor?_cons hy,
    lastFor?_cons hy', lastFor?_cons hspace]

end JsonShorthand
