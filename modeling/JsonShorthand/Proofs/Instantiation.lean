import JsonShorthand.Generator.Evaluation
import JsonShorthand.Proofs.Entries

namespace JsonShorthand

/-- Changes of the values of a map carry over to entries that are changed. -/
theorem Fields.map_alter {α β : Type} {f : α → β} {g : Option α → α} {h : Option β → β}
    (hcomm : ∀ present, f (g present) = h (present.map f)) {bound : Option String} (name : String)
    (above : Above bound name) (fields : Fields α bound) :
    (fields.alter name above g).map f = (fields.map f).alter name above h := by
  apply ext
  intro query
  rw [get?_map]
  by_cases hquery : query = name
  · subst hquery
    rw [get?_alter_self, get?_alter_self, get?_map, Option.map_some, hcomm]
  · rw [get?_alter_of_ne _ _ _ hquery, get?_alter_of_ne _ _ _ hquery, get?_map]

namespace Generator

mutual

def instantiate (name : String) (v : Value) : Generator → Generator
  | value w => value w
  | var other => if other = name then value v else var other
  | object fields => object (instantiateFields name v fields)
  | array elements => array (instantiateElements name v elements)

def instantiateFields (name : String) (v : Value) {bound : Option String} :
    Fields Generator bound → Fields Generator bound
  | .nil => .nil
  | .cons other above generator rest =>
    .cons other above (instantiate name v generator) (instantiateFields name v rest)

def instantiateElements (name : String) (v : Value) : List Generator → List Generator
  | [] => []
  | generator :: rest => instantiate name v generator :: instantiateElements name v rest

end

variable (name : String) (v : Value)

theorem instantiateFields_eq_map {bound : Option String} (fields : Fields Generator bound) :
    instantiateFields name v fields = fields.map (instantiate name v) := by
  induction fields with
  | nil => rfl
  | cons other above generator rest ih => simp [instantiateFields, Fields.map, ih]

/-- What stands in for a variable takes no more part in merges than the variable does. -/
theorem merge_instantiate_var (earlier : Generator) (other : String) :
    earlier.merge ((var other).instantiate name v) = (var other).instantiate name v := by
  unfold instantiate
  split <;> rfl

theorem instantiate_var_merge_object (other : String) (fields : Fields Generator none) :
    ((var other).instantiate name v).merge (object fields) = object fields := by
  unfold instantiate
  split <;> rfl

mutual

theorem instantiate_merge : ∀ earlier later : Generator,
    (earlier.merge later).instantiate name v =
      (earlier.instantiate name v).merge (later.instantiate name v)
  | _, value _ => rfl
  | earlier, var other => (merge_instantiate_var name v (earlier.instantiate name v) other).symm
  | _, array _ => rfl
  | value _, object _ => rfl
  | var other, object fields =>
    (instantiate_var_merge_object name v other (instantiateFields name v fields)).symm
  | array _, object _ => rfl
  | object earlier, object fields => congrArg object (instantiateFields_addAll earlier fields)

theorem instantiateFields_addAll (earlier : Fields Generator none) {bound : Option String} :
    ∀ later : Fields Generator bound,
      instantiateFields name v (earlier.addAll later) =
        (instantiateFields name v earlier).addAll (instantiateFields name v later)
  | .nil => rfl
  | .cons other above later rest => by
    have hrest := instantiateFields_addAll (earlier.add other later) rest
    have hadd : instantiateFields name v (earlier.add other later) =
        (instantiateFields name v earlier).add other (later.instantiate name v) := by
      rw [instantiateFields_eq_map, instantiateFields_eq_map]
      apply Fields.map_alter
      intro present
      cases present with
      | none => rfl
      | some present => exact instantiate_merge present later
    rw [Fields.addAll_cons, hrest, hadd]
    rfl

end

theorem instantiate_single (other : String) (generator : Generator) :
    (single other generator).instantiate name v = single other (generator.instantiate name v) := rfl

theorem instantiateFields_add (fields : Fields Generator none) (other : String)
    (later : Generator) :
    instantiateFields name v (fields.add other later) =
      (instantiateFields name v fields).add other (later.instantiate name v) :=
  instantiateFields_addAll name v fields (.cons other (Fields.above_none other) later .nil)

theorem instantiateFields_addList (fields : Fields Generator none)
    (entries : List (String × Generator)) :
    instantiateFields name v (fields.addList entries) =
      (instantiateFields name v fields).addList
        (entries.map fun entry => (entry.1, entry.2.instantiate name v)) := by
  induction entries generalizing fields with
  | nil => rfl
  | cons entry entries ih =>
    have hrest := ih (fields.add entry.1 entry.2)
    rw [instantiateFields_add] at hrest
    exact hrest

variable (bindings : Bindings)

mutual

/-- A value in the place of a variable counts as its binding. -/
theorem evaluate_instantiate : ∀ generator : Generator,
    (generator.instantiate name v).evaluate bindings =
      generator.evaluate (bindings.insert name v)
  | value w => rfl
  | var other => by
    by_cases hother : other = name
    · subst hother
      simp [instantiate, evaluate]
    · simp [instantiate, evaluate, hother, Fields.get?_insert_of_ne]
  | object fields => congrArg Value.object (evaluateFields_instantiate fields)
  | array elements => congrArg Value.array (evaluateElements_instantiate elements)

theorem evaluateFields_instantiate {bound : Option String} : ∀ fields : Fields Generator bound,
    evaluateFields bindings (instantiateFields name v fields) =
      evaluateFields (bindings.insert name v) fields
  | .nil => rfl
  | .cons other above generator rest => by
    simp only [instantiateFields, evaluateFields, evaluate_instantiate generator,
      evaluateFields_instantiate rest]

theorem evaluateElements_instantiate : ∀ elements : List Generator,
    evaluateElements bindings (instantiateElements name v elements) =
      evaluateElements (bindings.insert name v) elements
  | [] => rfl
  | generator :: rest => by
    simp only [instantiateElements, evaluateElements, evaluate_instantiate generator,
      evaluateElements_instantiate rest]

end

end Generator

end JsonShorthand
