import JsonShorthand.Document
import JsonShorthand.Proofs.JsonLayout
import JsonShorthand.Proofs.MergeOrder

namespace JsonShorthand

theorem Fields.ofList_zip_of_enumerates {α β : Type} {fields : Fields α none}
    {entries : List (String × α)} (h : fields.Enumerates entries) (f : α → β) :
    ofList ((entries.map Prod.fst).zip ((entries.map Prod.snd).map f)) = fields.map f := by
  rw [List.map_map, List.zip_map']
  apply ofList_of_perm
  rw [toList_map]
  exact List.Perm.map _ h

mutual

inductive Evaluates (bindings : Bindings) : Generator → Value → Prop where
  | value {v : Value} : Evaluates bindings (.value v) v
  | var {name : String} : Evaluates bindings (.var name) ((bindings.get? name).getD .null)
  | object {fields : Fields Generator none} {entries : List (String × Generator)}
    {values : List Value} (hentries : fields.Enumerates entries)
    (h : EvaluatesAll bindings (entries.map Prod.snd) values) :
    Evaluates bindings (.object fields) (.object (.ofList ((entries.map Prod.fst).zip values)))
  | array {elements : List Generator} {values : List Value}
    (h : EvaluatesAll bindings elements values) :
    Evaluates bindings (.array elements) (.array values)

inductive EvaluatesAll (bindings : Bindings) : List Generator → List Value → Prop where
  | nil : EvaluatesAll bindings [] []
  | cons {generator : Generator} {v : Value} {generators : List Generator} {values : List Value}
    (h : Evaluates bindings generator v) (hrest : EvaluatesAll bindings generators values) :
    EvaluatesAll bindings (generator :: generators) (v :: values)

end

mutual

theorem Evaluates.eq {bindings : Bindings} {generator : Generator} {v : Value} :
    Evaluates bindings generator v → v = generator.evaluate bindings
  | .value => rfl
  | .var => rfl
  | .object hentries h => by
    rw [EvaluatesAll.eq h, Fields.ofList_zip_of_enumerates hentries, Generator.evaluate,
      Generator.evaluateFields_eq_map]
  | .array h => by
    rw [EvaluatesAll.eq h, Generator.evaluate, Generator.evaluateElements_eq_map]

theorem EvaluatesAll.eq {bindings : Bindings} {generators : List Generator}
    {values : List Value} :
    EvaluatesAll bindings generators values → values = generators.map (·.evaluate bindings)
  | .nil => rfl
  | .cons h hrest => by rw [h.eq, EvaluatesAll.eq hrest, List.map_cons]

end

mutual

/-- What a value becomes in JSON, whose objects are sorted. -/
inductive Converts : Value → Value → Prop where
  | finite {x : Binary64} (h : x.isFinite) : Converts (.float x) (.float x)
  | notFinite {x : Binary64} (h : ¬ x.isFinite) : Converts (.float x) .null
  | null : Converts .null .null
  | boolean {b : Bool} : Converts (.boolean b) (.boolean b)
  | integer {n : Int64} : Converts (.integer n) (.integer n)
  | string {s : String} : Converts (.string s) (.string s)
  | object {fields : Fields Value none} {entries : List (String × Value)} {values : List Value}
    (hentries : fields.Enumerates entries) (h : ConvertsAll (entries.map Prod.snd) values) :
    Converts (.object fields) (.object (.ofList ((entries.map Prod.fst).zip values)))
  | array {elements values : List Value} (h : ConvertsAll elements values) :
    Converts (.array elements) (.array values)

inductive ConvertsAll : List Value → List Value → Prop where
  | nil : ConvertsAll [] []
  | cons {v w : Value} {vs ws : List Value} (h : Converts v w) (hrest : ConvertsAll vs ws) :
    ConvertsAll (v :: vs) (w :: ws)

end

mutual

theorem Converts.eq {v w : Value} : Converts v w → w = v.inJson
  | .finite h => by rw [Value.inJson, if_pos h]
  | .notFinite h => by rw [Value.inJson, if_neg h]
  | .null => rfl
  | .boolean => rfl
  | .integer => rfl
  | .string => rfl
  | .object hentries h => by
    rw [ConvertsAll.eq h, Fields.ofList_zip_of_enumerates hentries, Value.inJson_object]
  | .array h => by rw [ConvertsAll.eq h, Value.inJson_array]

theorem ConvertsAll.eq {vs ws : List Value} : ConvertsAll vs ws → ws = vs.map Value.inJson
  | .nil => rfl
  | .cons h hrest => by rw [h.eq, ConvertsAll.eq hrest, List.map_cons]

end

namespace Job

/-- What a job may come to. -/
inductive Produces (job : Job) : Except JobError (List String) → Prop where
  | noInput (h : job.expressions = []) : Produces job (.error .noInput)
  | substitution {error : SubstitutionError} (h : job.expressions ≠ [])
    (hbindings : Bindings.ofSubstitutions job.substitutions = .error error) :
    Produces job (.error (.substitution error))
  | expressions {bindings : Bindings} {error : ParseError} (h : job.expressions ≠ [])
    (hbindings : Bindings.ofSubstitutions job.substitutions = .ok bindings)
    (hread : ReadsAs job.text (.error error)) : Produces job (.error (.expressions error))
  | documents {bindings : Bindings} {forest : Forest} {values converted : List Value}
    (h : job.expressions ≠ [])
    (hbindings : Bindings.ofSubstitutions job.substitutions = .ok bindings)
    (hread : ReadsAs job.text (.ok forest)) (hvalues : EvaluatesAll bindings forest values)
    (hconverted : ConvertsAll values converted) : Produces job (.ok (converted.map job.render))

theorem render_inJson (job : Job) (v : Value) : job.render v.inJson = job.render v := by
  rw [render, render, Value.toPrettyJson_inJson, Value.toJson_inJson]

theorem Produces.eq {job : Job} {result : Except JobError (List String)} (h : job.Produces result) :
    result = job.documents := by
  unfold Job.documents
  cases h with
  | noInput h => rw [if_pos h]
  | substitution h hbindings => rw [if_neg h, hbindings]
  | expressions h hbindings hread => rw [if_neg h, hbindings, ← readsAs_iff.1 hread]
  | documents h hbindings hread hvalues hconverted =>
    rw [if_neg h, hbindings, ← readsAs_iff.1 hread, hconverted.eq, hvalues.eq, List.map_map]
    congr 2
    funext v
    exact render_inJson job v

end Job

def codePoints (s : String) : List Nat := s.toList.map Char.toNat

/-- The entries of a map in the order of the code points of their names, as they are printed. -/
structure Prints (fields : Fields Value none) (entries : List (String × Value)) : Prop where
  sorted : (entries.map fun entry => codePoints entry.1).Pairwise (· < ·)
  mem_iff : ∀ name v, (name, v) ∈ entries ↔ fields.get? name = some v
  compact : (Value.object fields).compact = '{' :: [','].intercalate
    (entries.map fun entry => Json.string entry.1 ++ ':' :: entry.2.compact) ++ ['}']
  pretty : ∀ depth, (Value.object fields).prettyAt depth = Value.block depth '{' '}'
    (entries.map fun entry =>
      Json.string entry.1 ++ ':' :: ' ' :: entry.2.prettyAt (depth + 1))

end JsonShorthand
