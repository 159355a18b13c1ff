import JsonShorthand.Generator

namespace JsonShorthand.Generator

def IsObject (generator : Generator) : Prop := ∃ fields, generator = .object fields

def at? (generator : Generator) : List String → Option Generator
  | [] => some generator
  | name :: path =>
    match generator with
    | object fields => (fields.get? name).bind fun child => child.at? path
    | _ => none

def chain (path : List String) (generator : Generator) : Generator := path.foldr single generator

@[simp] theorem at?_nil (generator : Generator) : generator.at? [] = some generator := by
  cases generator <;> rfl

@[simp] theorem object_at?_cons (fields : Fields Generator none) (name : String)
    (path : List String) :
    (object fields).at? (name :: path) = (fields.get? name).bind fun child => child.at? path := rfl

theorem at?_cons_of_not_isObject {generator : Generator} (h : ¬ generator.IsObject) (name : String)
    (path : List String) : generator.at? (name :: path) = none := by
  cases generator with
  | object fields => exact absurd ⟨fields, rfl⟩ h
  | _ => rfl

theorem merge_of_not_isObject {earlier later : Generator}
    (h : ¬ earlier.IsObject ∨ ¬ later.IsObject) : earlier.merge later = later := by
  cases later with
  | object fields =>
    cases earlier with
    | object earlierFields => simp [IsObject] at h
    | _ => rfl
  | _ => rfl

/-- Anything but an object counts as an object without fields. -/
def fieldsOf : Generator → Fields Generator none
  | object fields => fields
  | _ => .nil

theorem merge_single (earlier later : Generator) (name : String) :
    earlier.merge (single name later) = object (earlier.fieldsOf.add name later) := by
  cases earlier <;> rfl

theorem at?_cons_eq (generator : Generator) (name : String) (path : List String) :
    generator.at? (name :: path) =
      (generator.fieldsOf.get? name).bind fun child => child.at? path := by
  cases generator <;> rfl

theorem get?_add_self_eq (fields : Fields Generator none) (name : String) (later : Generator) :
    (fields.add name later).get? name =
      some (((fields.get? name).getD (.value .null)).merge later) := by
  rw [Fields.get?_add_self]
  cases fields.get? name with
  | none => cases later <;> rfl
  | some present => rfl

/-- What an assignment to `path` has made of the path `query`. -/
structure AssignedAt (before after : Generator) (path : List String) (assigned : Generator)
    (query : List String) : Prop where
  here : path = query → after.at? query = some assigned
  below : path <+: query → path ≠ query → after.at? query = none
  above : query <+: path → path ≠ query → ∃ fields, after.at? query = some (object fields)
  aside : ¬ path <+: query → ¬ query <+: path → after.at? query = before.at? query

/-- Merging with a chain is an assignment, unless an object stands at its end. -/
theorem assignedAt_merge_chain {later : Generator} (hlater : ¬ later.IsObject)
    (earlier : Generator) (path query : List String) :
    AssignedAt earlier (earlier.merge (chain path later)) path later query := by
  -- along the path, each name leads into what stands there, or into nothing
  induction path generalizing earlier query with
  | nil =>
    rw [show chain [] later = later from rfl, merge_of_not_isObject (.inr hlater)]
    cases query with
    | nil => constructor <;> simp
    | cons name query => constructor <;> simp [at?_cons_of_not_isObject hlater]
  | cons name path ih =>
    rw [show chain (name :: path) later = single name (chain path later) from rfl, merge_single]
    cases query with
    | nil => constructor <;> simp
    | cons other query =>
      by_cases hname : name = other
      · subst hname
        have hpath := ih ((earlier.fieldsOf.get? name).getD (.value .null)) query
        have hafter (later : Generator) : (object (earlier.fieldsOf.add name later)).at?
            (name :: query) =
              (((earlier.fieldsOf.get? name).getD (.value .null)).merge later).at? query := by
          rw [object_at?_cons, get?_add_self_eq, Option.bind_some]
        refine ⟨fun h => ?_, fun h hne => ?_, fun h hne => ?_, fun h h' => ?_⟩
        · exact hafter _ ▸ hpath.here (by simpa using h)
        · have hprefix : path <+: query := by simpa [List.cons_prefix_cons] using h
          exact hafter _ ▸ hpath.below hprefix (by simpa using hne)
        · have hprefix : query <+: path := by simpa [List.cons_prefix_cons] using h
          exact hafter _ ▸ hpath.above hprefix (by simpa using hne)
        · have hquery : ¬ query <+: path := by simpa [List.cons_prefix_cons] using h'
          rw [hafter, hpath.aside (by simpa [List.cons_prefix_cons] using h) hquery, at?_cons_eq]
          cases earlier.fieldsOf.get? name with
          | some present => rfl
          | none =>
            cases query with
            | nil => simp at hquery
            | cons => rfl
      · constructor <;>
          simp [hname, Ne.symm hname, Fields.get?_add_of_ne, at?_cons_eq earlier]

end JsonShorthand.Generator
