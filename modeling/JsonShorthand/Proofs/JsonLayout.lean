import JsonShorthand.Proofs.Trees
import JsonShorthand.Value.Json

namespace JsonShorthand

namespace Value

variable {bound : Option String}

theorem compactElements_eq_map (elements : List Value) :
    compactElements elements = elements.map compact := by
  induction elements with
  | nil => rfl
  | cons v rest ih => simp [compactElements, ih]

theorem compactFields_eq_map (fields : Fields Value bound) :
    compactFields fields =
      fields.toList.map fun entry => Json.string entry.1 ++ ':' :: entry.2.compact := by
  induction fields with
  | nil => rfl
  | cons name above v rest ih => simp [compactFields, Fields.toList, ih]

theorem prettyElements_eq_map (depth : Nat) (elements : List Value) :
    prettyElements depth elements = elements.map (prettyAt depth) := by
  induction elements with
  | nil => rfl
  | cons v rest ih => simp [prettyElements, ih]

theorem prettyFields_eq_map (depth : Nat) (fields : Fields Value bound) :
    prettyFields depth fields =
      fields.toList.map fun entry =>
        Json.string entry.1 ++ ':' :: ' ' :: entry.2.prettyAt depth := by
  induction fields with
  | nil => rfl
  | cons name above v rest ih => simp [prettyFields, Fields.toList, ih]

mutual

def inJson : Value → Value
  | float x => if x.isFinite then float x else null
  | array elements => array (inJsonElements elements)
  | object fields => object (inJsonFields fields)
  | v => v

def inJsonElements : List Value → List Value
  | [] => []
  | v :: rest => inJson v :: inJsonElements rest

def inJsonFields {bound : Option String} : Fields Value bound → Fields Value bound
  | .nil => .nil
  | .cons name above v rest => .cons name above (inJson v) (inJsonFields rest)

end

theorem inJsonElements_eq_map (elements : List Value) :
    inJsonElements elements = elements.map inJson := by
  induction elements with
  | nil => rfl
  | cons v rest ih => simp [inJsonElements, ih]

theorem inJsonFields_eq_map (fields : Fields Value bound) :
    inJsonFields fields = fields.map inJson := by
  induction fields with
  | nil => rfl
  | cons name above v rest ih => simp [inJsonFields, Fields.map, ih]

theorem inJson_array (elements : List Value) :
    (array elements).inJson = array (elements.map inJson) := by
  rw [inJson, inJsonElements_eq_map]

theorem inJson_object (fields : Fields Value none) :
    (object fields).inJson = object (fields.map inJson) := by
  rw [inJson, inJsonFields_eq_map]

theorem inJson_of_isScalar {v : Value} (h : v.IsScalar) :
    v.inJson.IsScalar ∧ v.inJson.scalar = v.scalar := by
  cases v with
  | float x =>
    by_cases hfinite : x.isFinite
    · simp [inJson, hfinite, IsScalar]
    · simp [inJson, hfinite, IsScalar, scalar, Json.float]
  | array elements | object fields => exact h.elim
  | _ => exact ⟨trivial, rfl⟩

theorem compact_of_isScalar {v : Value} (h : v.IsScalar) : v.compact = v.scalar := by
  cases v with
  | array elements | object fields => exact h.elim
  | _ => rfl

theorem prettyAt_of_isScalar {v : Value} (h : v.IsScalar) (depth : Nat) :
    v.prettyAt depth = v.scalar := by
  cases v with
  | array elements | object fields => exact h.elim
  | _ => rfl

theorem compact_inJson (v : Value) : v.inJson.compact = v.compact := by
  induction v using induction with
  | scalar v h =>
    obtain ⟨hscalar, heq⟩ := inJson_of_isScalar h
    rw [compact_of_isScalar hscalar, compact_of_isScalar h, heq]
  | array elements ih =>
    have hitems : compactElements (elements.map inJson) = compactElements elements := by
      rw [compactElements_eq_map, compactElements_eq_map, List.map_map]
      exact List.map_congr_left ih
    rw [inJson_array, compact, compact, hitems]
  | object fields ih =>
    have hitems : compactFields (fields.map inJson) = compactFields fields := by
      rw [compactFields_eq_map, compactFields_eq_map, Fields.toList_map, List.map_map]
      apply List.map_congr_left
      intro entry hentry
      simp [ih entry.1 entry.2 (fields.mem_toList_iff.1 hentry)]
    rw [inJson_object, compact, compact, hitems]

theorem prettyAt_inJson (v : Value) (depth : Nat) : v.inJson.prettyAt depth = v.prettyAt depth := by
  induction v using induction generalizing depth with
  | scalar v h =>
    obtain ⟨hscalar, heq⟩ := inJson_of_isScalar h
    rw [prettyAt_of_isScalar hscalar, prettyAt_of_isScalar h, heq]
  | array elements ih =>
    have hitems : prettyElements (depth + 1) (elements.map inJson) =
        prettyElements (depth + 1) elements := by
      rw [prettyElements_eq_map, prettyElements_eq_map, List.map_map]
      exact List.map_congr_left fun v hv => ih v hv (depth + 1)
    rw [inJson_array, prettyAt, prettyAt, hitems]
  | object fields ih =>
    have hitems : prettyFields (depth + 1) (fields.map inJson) =
        prettyFields (depth + 1) fields := by
      rw [prettyFields_eq_map, prettyFields_eq_map, Fields.toList_map, List.map_map]
      apply List.map_congr_left
      intro entry hentry
      simp [ih entry.1 entry.2 (fields.mem_toList_iff.1 hentry)]
    rw [inJson_object, prettyAt, prettyAt, hitems]

/-- A value is written as what JSON can hold of it. -/
theorem toJson_inJson (v : Value) : v.inJson.toJson = v.toJson :=
  congrArg String.ofList (compact_inJson v)

theorem toPrettyJson_inJson (v : Value) : v.inJson.toPrettyJson = v.toPrettyJson :=
  congrArg String.ofList (prettyAt_inJson v 0)

end Value

end JsonShorthand
