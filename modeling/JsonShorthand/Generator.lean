import JsonShorthand.Value

namespace JsonShorthand

inductive Generator where
  | value (v : Value)
  | var (name : String)
  | object (fields : Fields Generator none)
  | array (elements : List Generator)

/-- What a text is read as: one generator for each document. -/
abbrev Forest := List Generator

instance : Inhabited Generator := ⟨.value .null⟩

mutual

/-- Two objects merge field by field; of any other pair the later one stays. -/
def Generator.merge (earlier : Generator) : Generator → Generator
  | .object fields =>
    match earlier with
    | .object earlierFields => .object (earlierFields.addAll fields)
    | _ => .object fields
  | later => later

def Fields.addAll (earlier : Fields Generator none) {bound : Option String} :
    Fields Generator bound → Fields Generator none
  | .nil => earlier
  | .cons name _ later rest =>
    Fields.addAll
      (earlier.alter name (Fields.above_none name) fun
        | none => later
        | some present => present.merge later)
      rest

end

namespace Fields

/-- Stores a generator under a name, merged with what stands there already. -/
def add (fields : Fields Generator none) (name : String) (later : Generator) :
    Fields Generator none :=
  fields.alter name (above_none name) fun
    | none => later
    | some present => present.merge later

def addList (fields : Fields Generator none) (entries : List (String × Generator)) :
    Fields Generator none :=
  entries.foldl (fun fields entry => fields.add entry.1 entry.2) fields

@[simp] theorem get?_add_self (fields : Fields Generator none) (name : String)
    (later : Generator) :
    (fields.add name later).get? name =
      some (match fields.get? name with
        | none => later
        | some present => present.merge later) := by
  simp [add]

theorem get?_add_of_ne (fields : Fields Generator none) {name query : String} (later : Generator)
    (hne : query ≠ name) : (fields.add name later).get? query = fields.get? query :=
  get?_alter_of_ne _ _ _ hne

@[simp] theorem addAll_nil (earlier : Fields Generator none) {bound : Option String} :
    earlier.addAll (.nil : Fields Generator bound) = earlier := rfl

theorem addAll_cons (earlier : Fields Generator none) {bound : Option String} (name : String)
    (above : Above bound name) (later : Generator) (rest : Fields Generator (some name)) :
    earlier.addAll (.cons name above later rest) = (earlier.add name later).addAll rest := rfl

theorem addAll_eq_addList (earlier : Fields Generator none) {bound : Option String}
    (later : Fields Generator bound) : earlier.addAll later = earlier.addList later.toList := by
  induction later generalizing earlier with
  | nil => rfl
  | cons name above value rest ih => simp [addAll_cons, toList, addList, ih]

end Fields

namespace Generator

def single (name : String) (generator : Generator) : Generator :=
  object (.cons name (Fields.above_none name) generator .nil)

theorem merge_object (earlier later : Fields Generator none) :
    (object earlier).merge (object later) = object (earlier.addAll later) := rfl

mutual

/-- Equality of generators, where floating-point numbers are compared as numbers. -/
def same : Generator → Generator → Bool
  | value v, value w => v.same w
  | var m, var n => m = n
  | object fs, object gs => sameFields fs gs
  | array gs, array hs => sameElements gs hs
  | _, _ => false

def sameElements : List Generator → List Generator → Bool
  | [], [] => true
  | g :: gs, h :: hs => same g h && sameElements gs hs
  | _, _ => false

def sameFields {bound other : Option String} :
    Fields Generator bound → Fields Generator other → Bool
  | .nil, .nil => true
  | .cons k _ g fs, .cons l _ h gs => k = l && same g h && sameFields fs gs
  | _, _ => false

end

end Generator

end JsonShorthand
