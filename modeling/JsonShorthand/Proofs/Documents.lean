import JsonShorthand.Proofs.Shape

namespace JsonShorthand

namespace Job

theorem documents_eq_ok_iff {job : Job} {documents : List String} :
    job.documents = .ok documents ↔
      job.expressions ≠ [] ∧ ∃ bindings forest,
        Bindings.ofSubstitutions job.substitutions = .ok bindings ∧
          readForest job.text = .ok forest ∧
            documents = forest.map fun generator => job.render (generator.evaluate bindings) := by
  unfold Job.documents
  by_cases h : job.expressions = []
  · simp [h]
  · cases hbindings : Bindings.ofSubstitutions job.substitutions with
    | error error => simp [h]
    | ok bindings =>
      cases hread : readForest job.text with
      | error error => simp [h]
      | ok forest => simp [h, Forest.evaluate, Function.comp_def, eq_comm]

/-- Documents on one line each are as many as the generators that are read, of which there is at
least one. -/
theorem exists_forest_of_documents {job : Job} {documents : List String}
    (hpretty : job.pretty = false) (h : job.documents = .ok documents) :
    ∃ bindings forest, Bindings.ofSubstitutions job.substitutions = .ok bindings ∧
      readForest job.text = .ok forest ∧ 1 ≤ forest.length ∧
        documents = forest.map fun generator => (generator.evaluate bindings).toJson := by
  obtain ⟨-, bindings, forest, hbindings, hread, hdocuments⟩ := documents_eq_ok_iff.1 h
  have hrender : job.render = Value.toJson := by
    funext v
    simp [render, hpretty]
  rw [hrender] at hdocuments
  exact ⟨bindings, forest, hbindings, hread, List.length_pos_iff.2 (readForest_ne_nil hread),
    hdocuments⟩

theorem documents_singleton_text {expressions : List String} (h : expressions ≠ [])
    (substitutions : List String) (pretty : Bool) :
    (mk [" ".intercalate expressions] substitutions pretty).documents =
      (mk expressions substitutions pretty).documents := by
  unfold Job.documents
  rw [if_neg (List.cons_ne_nil _ _), if_neg h, text_singleton]
  rfl

end Job

theorem head?_append_of_head? {text : String} {c : Char} (h : text.toList.head? = some c)
    (rest : String) : (text ++ rest).toList.head? = some c := by
  rw [String.toList_append, List.head?_append, h, Option.some_or]

theorem ParseError.head?_display (error : ParseError) : error.display.toList.head? = some 'P' := by
  unfold display pointAt
  simp only [String.append_assoc]
  exact head?_append_of_head? (by decide) _

theorem SubstitutionError.head?_message_ne (error : SubstitutionError) :
    error.message.toList.head? ≠ some 'J' := by
  cases error with
  | malformed argument =>
    have hhead : ("Invalid substitution " ++ Text.quote argument ++
        ": expected NAME=VALUE").toList.head? = some 'I' := by
      rw [String.append_assoc]
      exact head?_append_of_head? (by decide) _
    exact fun h => absurd (hhead.symm.trans h) (by decide)
  | value error => exact fun h => absurd (error.head?_display.symm.trans h) (by decide)

theorem JobError.head?_message_ne (error : JobError) :
    error.message.toList.head? ≠ some 'J' := by
  cases error with
  | noInput => decide
  | substitution error => exact SubstitutionError.head?_message_ne error
  | expressions error => exact fun h => absurd (error.head?_display.symm.trans h) (by decide)

/-- The message for a value that cannot be written as JSON. -/
def IsJsonMessage (message : String) : Prop := "JSON encoding error".toList <+: message.toList

theorem not_isJsonMessage {message : String} (h : message.toList.head? ≠ some 'J') :
    ¬ IsJsonMessage message := by
  rintro ⟨rest, hrest⟩
  apply h
  rw [← hrest]
  rfl

end JsonShorthand
