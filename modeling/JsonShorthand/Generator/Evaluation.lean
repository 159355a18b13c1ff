import JsonShorthand.Generator

namespace JsonShorthand

/-- The values of variables; a variable without one stands for null. -/
abbrev Bindings := Fields Value none

namespace Generator

mutual

def evaluate (bindings : Bindings) : Generator → Value
  | value v => v
  | var name => (bindings.get? name).getD .null
  | object fields => .object (evaluateFields bindings fields)
  | array elements => .array (evaluateElements bindings elements)

def evaluateElements (bindings : Bindings) : List Generator → List Value
  | [] => []
  | generator :: rest => evaluate bindings generator :: evaluateElements bindings rest

def evaluateFields (bindings : Bindings) {bound : Option String} :
    Fields Generator bound → Fields Value bound
  | .nil => .nil
  | .cons name above generator rest =>
    .cons name above (evaluate bindings generator) (evaluateFields bindings rest)

end

theorem evaluateElements_eq_map (bindings : Bindings) (elements : List Generator) :
    evaluateElements bindings elements = elements.map (evaluate bindings) := by
  induction elements with
  | nil => rfl
  | cons generator rest ih => simp [evaluateElements, ih]

theorem evaluateFields_eq_map (bindings : Bindings) {bound : Option String}
    (fields : Fields Generator bound) :
    evaluateFields bindings fields = fields.map (evaluate bindings) := by
  induction fields with
  | nil => rfl
  | cons name above generator rest ih => simp [evaluateFields, Fields.map, ih]

end Generator

def Forest.evaluate (bindings : Bindings) (forest : Forest) : List Value :=
  forest.map (Generator.evaluate bindings)

end JsonShorthand
