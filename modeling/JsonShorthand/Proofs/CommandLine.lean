import JsonShorthand.CommandLine.Run
import JsonShorthand.Proofs.Documents
import JsonShorthand.Proofs.JsonCharacters

namespace JsonShorthand

namespace Text

theorem linesAfter_append {text : List Char} (h : '\n' ∉ text) (line rest : List Char) :
    linesAfter line (text ++ '\n' :: rest) =
      dropReturn (line.reverse ++ text) :: linesAfter [] rest := by
  induction text generalizing line with
  | nil => simp [linesAfter]
  | cons c text ih =>
    obtain ⟨hc, htext⟩ := not_or.1 (mt List.mem_cons.2 h)
    rw [List.cons_append, linesAfter, ih htext]
    · simp
    · exact fun heq => hc heq.symm

/-- Lines that are each ended by a line feed are found again, but for a carriage return that could
belong to the line end. -/
theorem lines_flatMap {texts : List (List Char)} (h : ∀ text ∈ texts, '\n' ∉ text) :
    lines (texts.flatMap (· ++ ['\n'])) = texts.map dropReturn := by
  induction texts with
  | nil => rfl
  | cons text texts ih =>
    obtain ⟨htext, htexts⟩ := List.forall_mem_cons.1 h
    have hrest := ih htexts
    unfold lines at hrest ⊢
    rw [List.flatMap_cons, List.append_assoc, List.singleton_append, linesAfter_append htext,
      hrest]
    rfl

theorem lines_flatMap_of_getLast? {texts : List (List Char)}
    (h : ∀ text ∈ texts, '\n' ∉ text ∧ text.getLast? ≠ some '\r') :
    lines (texts.flatMap (· ++ ['\n'])) = texts := by
  have hdrop : ∀ text ∈ texts, dropReturn text = id text := fun text htext =>
    if_neg (h text htext).2
  rw [lines_flatMap fun text htext => (h text htext).1, List.map_congr_left hdrop, List.map_id]

end Text

namespace CommandLine

theorem toList_join_lines (texts : List String) :
    (String.join (texts.map line)).toList = (texts.map String.toList).flatMap (· ++ ['\n']) := by
  simp [String.toList_join, List.flatMap_map, line]

theorem fromUTF8?_toUTF8 (text : String) : String.fromUTF8? text.toUTF8 = some text :=
  dif_pos text.isValidUTF8

namespace Progress

def take (progress : Progress) (argument : String) : Except Request Progress :=
  match words? argument with
  | some words => words.foldlM takeWord progress
  | none => progress.takePlain argument

theorem takeAll_cons {argument : String} (h : argument ≠ "--") (progress : Progress)
    (rest : List String) :
    progress.takeAll (argument :: rest) =
      (progress.take argument).bind fun next => next.takeAll rest := by
  rw [takeAll, take]
  · cases words? argument <;> rfl
  · exact h

theorem takeAll_append {arguments : List String} (h : "--" ∉ arguments) (progress : Progress)
    (expressions : List String) :
    progress.takeAll (arguments ++ "--" :: expressions) =
      (progress.takeAll arguments).map (·.addExpressions expressions) := by
  induction arguments generalizing progress with
  | nil => rfl
  | cons argument arguments ih =>
    obtain ⟨hargument, harguments⟩ := not_or.1 (mt List.mem_cons.2 h)
    rw [List.cons_append, takeAll_cons (Ne.symm hargument), takeAll_cons (Ne.symm hargument)]
    cases progress.take argument with
    | error request => rfl
    | ok next => exact ih harguments next

/-- What is wrong with arguments stays wrong, since nothing after the end of the options can be the
value that a setting waits for. -/
theorem takeAll_append_of_error {arguments : List String} {progress : Progress} {request : Request}
    (h : progress.takeAll arguments = .error request) (expressions : List String) :
    progress.takeAll (arguments ++ "--" :: expressions) = .error request := by
  induction arguments generalizing progress with
  | nil =>
    have hdone : progress.done = .error request := h
    rw [List.nil_append, takeAll, hdone]
    rfl
  | cons argument arguments ih =>
    by_cases hargument : argument = "--"
    · subst hargument
      rw [takeAll] at h
      rw [List.cons_append, takeAll]
      cases hdone : progress.done with
      | error other => simpa [hdone, Except.map] using h
      | ok options => simp [hdone, Except.map] at h
    · rw [takeAll_cons hargument] at h
      rw [List.cons_append, takeAll_cons hargument]
      cases htake : progress.take argument with
      | error other => simpa [htake, Except.bind] using h
      | ok next => exact ih (by simpa [htake, Except.bind] using h)

end Progress

/-- Requests that are answered whatever the expressions are. -/
def Request.IsAnswered : Request → Prop
  | .generate _ => False
  | _ => True

def Refuses {α : Type} (result : Except Request α) : Prop :=
  ∀ request, result = .error request → request.IsAnswered

namespace Refuses

variable {α β : Type} {result : Except Request α}

theorem ok (a : α) : Refuses (.ok a) := nofun

theorem error {request : Request} (h : request.IsAnswered) :
    Refuses (.error request : Except Request α) := by
  rintro _ ⟨⟩
  exact h

theorem usageError : Refuses (.error .usageError : Except Request α) := error trivial

theorem map (h : Refuses result) (f : α → β) : Refuses (result.map f) := by
  cases result with
  | ok a => exact ok _
  | error request => exact error (h request rfl)

theorem bind (h : Refuses result) {f : α → Except Request β} (hf : ∀ a, Refuses (f a)) :
    Refuses (result.bind f) := by
  cases result with
  | ok a => exact hf a
  | error request => exact error (h request rfl)

theorem foldlM {f : β → α → Except Request β} (hf : ∀ b a, Refuses (f b a)) (items : List α)
    (b : β) : Refuses (items.foldlM f b) := by
  induction items generalizing b with
  | nil => exact ok b
  | cons a items ih => exact (hf b a).bind ih

end Refuses

theorem Options.refuses_set (options : Options) (value : String) (setting : Setting) :
    Refuses (options.set value setting) := by
  cases setting with
  | substitution => exact .ok _
  | logLevel =>
    rw [set]
    split
    · exact .ok _
    · exact .usageError

namespace Progress

theorem refuses_takeWord (progress : Progress) (word : Word) :
    Refuses (progress.takeWord word) := by
  unfold takeWord
  split
  case h_2 =>
    split
    · exact .usageError
    · exact .ok _
  case h_5 => exact .ok _
  case h_6 => exact (progress.options.refuses_set _ _).map _
  all_goals exact .error trivial

theorem refuses_take (progress : Progress) (argument : String) :
    Refuses (progress.take argument) := by
  unfold take
  split
  case h_1 words _ => exact .foldlM refuses_takeWord words progress
  case h_2 =>
    unfold takePlain
    split
    · exact (progress.options.refuses_set _ _).map _
    · exact .ok _

theorem refuses_done (progress : Progress) : Refuses progress.done := by
  unfold done
  split
  · exact .ok _
  · exact .usageError

theorem refuses_takeAll (progress : Progress) (arguments : List String) :
    Refuses (progress.takeAll arguments) := by
  induction arguments generalizing progress with
  | nil => exact progress.refuses_done
  | cons argument arguments ih =>
    by_cases h : argument = "--"
    · subst h
      exact progress.refuses_done.map _
    · rw [takeAll_cons h]
      exact (progress.refuses_take argument).bind ih

end Progress

namespace Request

def addExpressions (expressions : List String) : Request → Request
  | generate options => generate (options.addExpressions expressions)
  | request => request

/-- Expressions behind the end of the options join a request, unless the options have an end
already. -/
theorem ofArguments_append {arguments : List String}
    (h : ∀ options, ofArguments arguments = generate options → "--" ∉ arguments)
    (expressions : List String) :
    ofArguments (arguments ++ "--" :: expressions) =
      (ofArguments arguments).addExpressions expressions := by
  unfold ofArguments at h ⊢
  cases htake : (Progress.mk .empty none).takeAll arguments with
  | error request =>
    have hanswered := Progress.refuses_takeAll _ arguments request htake
    rw [Progress.takeAll_append_of_error htake]
    cases request with
    | generate options => exact hanswered.elim
    | _ => rfl
  | ok options =>
    have hend : "--" ∉ arguments := h options (by rw [htake])
    rw [Progress.takeAll_append hend, htake]
    rfl

end Request

/-- What is to be done for options. The expressions are those among the arguments or, if there are
none, the standard input, which has to be UTF-8. -/
def Options.job? (options : Options) (input : ByteArray) : Option Job :=
  let expressions? := if options.expressions = [] then
    (String.fromUTF8? input).map expressionsOfInput else some options.expressions
  expressions?.map fun expressions => ⟨expressions, options.substitutions, options.pretty⟩

def Options.warnings (options : Options) : List String :=
  (options.logLevel.map LogFilter.warnings).getD []

def encodingMessage : String := "IO error: stream did not contain valid UTF-8"

def outcomeOfJob (job : Job) : Outcome :=
  match job.documents with
  | .ok documents => succeed (String.join (documents.map line))
  | .error error => fail error.message

theorem outcome_generate (options : Options) (input : ByteArray) :
    (Request.generate options).outcome input =
      ((options.job? input).elim (fail encodingMessage) outcomeOfJob).warn options.warnings := by
  unfold Request.outcome Request.readsInput Options.job?
  by_cases h : options.expressions = []
  · simp only [h, decide_true, if_true]
    cases String.fromUTF8? input <;> rfl
  · simp only [h, decide_false, if_false]
    rfl

namespace Options

variable {options : Options}

theorem job?_of_ne_nil (h : options.expressions ≠ []) (input : ByteArray) :
    options.job? input =
      some ⟨options.expressions, options.substitutions, options.pretty⟩ := by
  simp [job?, h]

theorem job?_toUTF8 (h : options.expressions = []) (text : String) :
    options.job? text.toUTF8 =
      some ⟨expressionsOfInput text, options.substitutions, options.pretty⟩ := by
  rw [job?, if_pos h, fromUTF8?_toUTF8]
  rfl

theorem eq_of_job? {input : ByteArray} {job : Job} (h : options.job? input = some job) :
    job.substitutions = options.substitutions ∧ job.pretty = options.pretty := by
  obtain ⟨expressions, -, rfl⟩ := Option.map_eq_some_iff.1 h
  exact ⟨rfl, rfl⟩

end Options

theorem expressionsOfInput_lines {expressions : List String}
    (hlines : ∀ text ∈ expressions, '\n' ∉ text.toList ∧ text.toList.getLast? ≠ some '\r')
    (hblank : ¬ (" ".intercalate expressions).toList.all Text.isBlank) :
    expressionsOfInput (String.join (expressions.map line)) = [" ".intercalate expressions] := by
  have hjoined : [' '].intercalate (expressions.map String.toList) =
      (" ".intercalate expressions).toList := by
    simp [String.toList_intercalate]
  unfold expressionsOfInput
  rw [toList_join_lines, Text.lines_flatMap_of_getLast? (by simpa using hlines), hjoined,
    if_neg hblank, String.ofList_toList]

/-- Expressions are the same to a run behind the end of the options, and as lines of the standard
input when there are none among the arguments. -/
theorem run_arguments_eq_run_lines {arguments expressions : List String}
    (hnone : ∀ options, Request.ofArguments arguments = .generate options →
      "--" ∉ arguments ∧ options.expressions = [])
    (hne : expressions ≠ [])
    (hlines : ∀ text ∈ expressions, '\n' ∉ text.toList ∧ text.toList.getLast? ≠ some '\r')
    (hblank : ¬ (" ".intercalate expressions).toList.all Text.isBlank) (input : ByteArray) :
    run (arguments ++ "--" :: expressions) input =
      run arguments (String.join (expressions.map line)).toUTF8 := by
  unfold run
  rw [Request.ofArguments_append fun options h => (hnone options h).1]
  cases hrequest : Request.ofArguments arguments with
  | generate options =>
    obtain ⟨-, hempty⟩ := hnone options hrequest
    have hexpressions : (options.addExpressions expressions).expressions = expressions := by
      simp [Options.addExpressions, hempty]
    have hjob := Options.job?_of_ne_nil (hexpressions ▸ hne) input
    rw [hexpressions] at hjob
    rw [Request.addExpressions, outcome_generate, outcome_generate, hjob,
      Options.job?_toUTF8 hempty, expressionsOfInput_lines hlines hblank]
    simp only [Option.elim_some, outcomeOfJob, Job.documents_singleton_text hne]
    rfl
  | _ => rfl

/-- Lines that are empty, that begin with a space and that have a carriage return inside; the last
one is faulty. -/
theorem run_arguments_eq_run_lines_faulty :
    run (["-p", "-s", "x=on"] ++ "--" :: ["a=$x", "", " b.c=d\re=]"]) .empty =
      run ["-p", "-s", "x=on"] "a=$x\n\n b.c=d\re=]\n".toUTF8 := by
  have harguments : Request.ofArguments ["-p", "-s", "x=on"] =
      .generate ⟨true, none, ["x=on"], []⟩ := by cbv
  have hnone : ∀ options, Request.ofArguments ["-p", "-s", "x=on"] = .generate options →
      "--" ∉ ["-p", "-s", "x=on"] ∧ options.expressions = [] := by
    intro options h
    obtain rfl := Request.generate.inj (harguments.symm.trans h)
    exact ⟨by decide, rfl⟩
  have hlines : ∀ text ∈ ["a=$x", "", " b.c=d\re=]"],
      '\n' ∉ text.toList ∧ text.toList.getLast? ≠ some '\r' := by
    decide
  exact run_arguments_eq_run_lines hnone (by decide) hlines (by decide +kernel) .empty

theorem outcomeOfJob_of_ok {job : Job} {documents : List String}
    (h : job.documents = .ok documents) :
    outcomeOfJob job = succeed (String.join (documents.map line)) := by
  rw [outcomeOfJob, h]

theorem outcomeOfJob_of_error {job : Job} {error : JobError} (h : job.documents = .error error) :
    outcomeOfJob job = fail error.message := by
  rw [outcomeOfJob, h]

theorem lines_output {documents : List String}
    (h : ∀ document ∈ documents, ∀ c ∈ document.toList, ¬ IsControl c) :
    Text.lines (String.join (documents.map line)).toList = documents.map String.toList := by
  rw [toList_join_lines]
  apply Text.lines_flatMap_of_getLast?
  intro text htext
  obtain ⟨document, hdocument, rfl⟩ := List.mem_map.1 htext
  have hcontrol := h document hdocument
  refine ⟨fun hmem => hcontrol _ hmem (by decide), fun hlast => ?_⟩
  exact hcontrol _ (List.mem_of_getLast? hlast) (by decide)

/-- A run that is to print documents on one line each either prints all of them, of which there is
at least one, and its output can be split into them again; or it prints none of them and one
message, which is about the input and never about writing JSON. -/
theorem run_all_or_nothing {arguments : List String} {options : Options}
    (h : Request.ofArguments arguments = .generate options) (hpretty : options.pretty = false)
    (input : ByteArray) :
    let outcome := run arguments input
    let warnings := String.join (options.warnings.map line)
    (∃ job bindings forest documents,
      options.job? input = some job ∧
        Bindings.ofSubstitutions options.substitutions = .ok bindings ∧
        readForest job.text = .ok forest ∧ 1 ≤ forest.length ∧
        documents = forest.map (fun generator => (generator.evaluate bindings).toJson) ∧
        outcome = ⟨0, String.join (documents.map line), warnings⟩ ∧
        (∀ document ∈ documents, ∀ c ∈ document.toList, 0x20 ≤ c.toNat) ∧
        Text.lines outcome.output.toList = documents.map String.toList) ∨
      ∃ message,
        (options.job? input = none ∧ message = encodingMessage ∨
          ∃ job error, options.job? input = some job ∧ job.documents = .error error ∧
            message = error.message) ∧
        outcome = ⟨1, "", warnings ++ line message⟩ ∧
        ¬ IsJsonMessage message := by
  intro outcome warnings
  have houtcome : outcome =
      ((options.job? input).elim (fail encodingMessage) outcomeOfJob).warn options.warnings := by
    rw [← outcome_generate, ← h]
    rfl
  cases hjob : options.job? input with
  | none =>
    right
    refine ⟨encodingMessage, .inl ⟨rfl, rfl⟩, ?_, not_isJsonMessage (by decide)⟩
    rw [houtcome, hjob]
    rfl
  | some job =>
    rw [hjob, Option.elim_some] at houtcome
    cases hdocuments : job.documents with
    | error error =>
      right
      rw [outcomeOfJob_of_error hdocuments] at houtcome
      exact ⟨error.message, .inr ⟨job, error, rfl, hdocuments, rfl⟩, houtcome,
        not_isJsonMessage (JobError.head?_message_ne error)⟩
    | ok documents =>
      left
      obtain ⟨hsubstitutions, hjobPretty⟩ := Options.eq_of_job? hjob
      obtain ⟨bindings, forest, hbindings, hread, hlength, hforest⟩ :=
        Job.exists_forest_of_documents (hjobPretty.trans hpretty) hdocuments
      rw [hsubstitutions] at hbindings
      -- no document has a line end in it, so the output falls into them again
      have hcontrol : ∀ document ∈ documents, ∀ c ∈ document.toList, ¬ IsControl c := by
        intro document hdocument c hc
        rw [hforest] at hdocument
        obtain ⟨generator, -, rfl⟩ := List.mem_map.1 hdocument
        exact Value.not_isControl_of_mem_toJson hc
      have hprinted : outcome = ⟨0, String.join (documents.map line), warnings⟩ := by
        rw [houtcome, outcomeOfJob_of_ok hdocuments]
        simp [Outcome.warn, succeed, warnings]
      refine ⟨job, bindings, forest, documents, rfl, hbindings, hread, hlength, hforest, hprinted,
        ?_, ?_⟩
      · intro document hdocument c hc
        exact Nat.le_of_not_lt (hcontrol document hdocument c hc)
      · rw [hprinted]
        exact lines_output hcontrol

theorem run_all_or_nothing_lineEnd :
    (run ["[\"a\nb\"] []"] .empty).status = 0 ∧
      ∃ documents : List String, 1 ≤ documents.length ∧
        Text.lines (run ["[\"a\nb\"] []"] .empty).output.toList =
          documents.map String.toList := by
  have harguments : Request.ofArguments ["[\"a\nb\"] []"] =
      .generate ⟨false, none, [], ["[\"a\nb\"] []"]⟩ := by cbv
  have hstatus : (run ["[\"a\nb\"] []"] .empty).status = 0 := by cbv
  rcases run_all_or_nothing harguments rfl .empty with
    ⟨job, bindings, forest, documents, -, -, -, hlength, hforest, -, -, hlines⟩ |
    ⟨message, -, hfail, -⟩
  · refine ⟨hstatus, documents, ?_, hlines⟩
    rwa [hforest, List.length_map]
  · rw [hfail] at hstatus
    exact absurd hstatus Nat.one_ne_zero

end CommandLine

end JsonShorthand
