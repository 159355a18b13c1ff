namespace JsonShorthand

def Above : Option String → String → Prop
  | none, _ => True
  | some bound, name => bound < name

/-- A map from names above `bound`, whose entries stand in increasing order of names, so that maps
with the same entries are equal (`Fields.ext`). -/
inductive Fields (α : Type) : Option String → Type where
  | nil {bound : Option String} : Fields α bound
  | cons {bound : Option String} (name : String) (above : Above bound name) (value : α)
      (rest : Fields α (some name)) : Fields α bound

namespace Fields

variable {α β : Type} {bound : Option String}

theorem above_of_lt {bound : Option String} {name other : String} (h : Above bound name)
    (hlt : name < other) : Above bound other := by
  cases bound with
  | none => trivial
  | some b => exact String.lt_trans h hlt

theorem above_none (name : String) : Above none name := trivial

theorem above_some {name other : String} (h : ¬ name < other) (hne : name ≠ other) :
    Above (some other) name :=
  show other < name by grind

def toList {bound : Option String} : Fields α bound → List (String × α)
  | nil => []
  | cons name _ value rest => (name, value) :: rest.toList

def size (fields : Fields α bound) : Nat := fields.toList.length

def isEmpty : Fields α bound → Bool
  | nil => true
  | cons .. => false

def get? {bound : Option String} (name : String) : Fields α bound → Option α
  | nil => none
  | cons other _ value rest => if name = other then some value else rest.get? name

/-- Stores under `name` what `f` makes of the entry that stood there. -/
def alter {bound : Option String} (name : String) (above : Above bound name) (f : Option α → α) :
    Fields α bound → Fields α bound
  | nil => cons name above (f none) nil
  | cons other h value rest =>
    if hlt : name < other then cons name above (f none) (cons other hlt value rest)
    else if heq : name = other then cons other h (f (some value)) rest
    else cons other h value (rest.alter name (above_some hlt heq) f)

/-- A later entry under a name replaces the earlier one. -/
def insert (fields : Fields α none) (name : String) (value : α) : Fields α none :=
  fields.alter name (above_none name) fun _ => value

def ofList (entries : List (String × α)) : Fields α none :=
  entries.foldl (fun fields entry => fields.insert entry.1 entry.2) nil

def map (f : α → β) {bound : Option String} : Fields α bound → Fields β bound
  | nil => nil
  | cons name above value rest => cons name above (f value) (rest.map f)

theorem get?_eq_none_of_not_above {bound : Option String} {name : String} (fields : Fields α bound)
    (h : ¬ Above bound name) : fields.get? name = none := by
  induction fields with
  | nil => rfl
  | cons other above value rest ih =>
    have hlt : ¬ other < name := fun hlt => h (above_of_lt above hlt)
    have hne : name ≠ other := by rintro rfl; exact h above
    simp [get?, hne, ih hlt]

@[simp] theorem get?_nil (name : String) : (nil : Fields α bound).get? name = none := rfl

@[simp] theorem get?_alter_self {bound : Option String} (name : String) (above : Above bound name)
    (f : Option α → α) (fields : Fields α bound) :
    (fields.alter name above f).get? name = some (f (fields.get? name)) := by
  induction fields with
  | nil => simp [alter, get?]
  | cons other h value rest ih =>
    unfold alter
    split
    · next hlt =>
      have hne : name ≠ other := fun e => String.lt_irrefl other (e ▸ hlt)
      have hrest : rest.get? name = none :=
        get?_eq_none_of_not_above rest fun h' => String.lt_irrefl name (String.lt_trans hlt h')
      simp [get?, hne, hrest]
    · split
      · next heq => simp [get?, heq]
      · next hne => simp [get?, hne, ih]

theorem get?_alter_of_ne {bound : Option String} {name query : String} (above : Above bound name)
    (f : Option α → α) (fields : Fields α bound) (hne : query ≠ name) :
    (fields.alter name above f).get? query = fields.get? query := by
  induction fields with
  | nil => simp [alter, get?, hne]
  | cons other h value rest ih =>
    unfold alter
    split
    · simp [get?, hne]
    · split
      · next heq => simp [get?, ← heq, hne]
      · simp [get?, ih]

@[simp] theorem get?_insert_self (fields : Fields α none) (name : String) (value : α) :
    (fields.insert name value).get? name = some value := by
  simp [insert]

theorem get?_insert_of_ne (fields : Fields α none) {name query : String} (value : α)
    (hne : query ≠ name) : (fields.insert name value).get? query = fields.get? query :=
  get?_alter_of_ne _ _ _ hne

@[simp] theorem get?_map (f : α → β) {bound : Option String} (fields : Fields α bound)
    (name : String) : (fields.map f).get? name = (fields.get? name).map f := by
  induction fields with
  | nil => rfl
  | cons other _ value rest ih => by_cases h : name = other <;> simp [map, get?, h, ih]

/-- A map is determined by its look-ups. -/
theorem ext {bound : Option String} {fields others : Fields α bound}
    (h : ∀ name, fields.get? name = others.get? name) : fields = others := by
  induction fields with
  | nil =>
    cases others with
    | nil => rfl
    | cons name _ value rest => simpa [get?] using h name
  | cons name above value rest ih =>
    cases others with
    | nil => simpa [get?] using h name
    | cons other above' value' rest' =>
      have heq : name = other := by
        rcases Classical.em (name < other) with hlt | hlt
        · have hne : name ≠ other := fun e => String.lt_irrefl other (e ▸ hlt)
          have hrest : rest'.get? name = none :=
            get?_eq_none_of_not_above rest' fun h' => String.lt_irrefl name (String.lt_trans hlt h')
          simpa [get?, hne, hrest] using h name
        · rcases Classical.em (name = other) with heq | hne
          · exact heq
          · have hlt' : other < name := above_some hlt hne
            have hrest : rest.get? other = none :=
              get?_eq_none_of_not_above rest fun h' =>
                String.lt_irrefl other (String.lt_trans hlt' h')
            simpa [get?, Ne.symm hne, hrest] using h other
      subst heq
      have hvalue : value = value' := by simpa [get?] using h name
      subst hvalue
      have hrest : rest = rest' := ih fun query => by
        rcases Classical.em (query = name) with heq | hne
        · subst heq
          rw [get?_eq_none_of_not_above rest (String.lt_irrefl query),
            get?_eq_none_of_not_above rest' (String.lt_irrefl query)]
        · simpa [get?, hne] using h query
      rw [hrest]

theorem pairwise_toList {bound : Option String} (fields : Fields α bound) :
    fields.toList.Pairwise fun entry later => entry.1 < later.1 := by
  have key : ∀ {bound : Option String} (fields : Fields α bound),
      (∀ entry ∈ fields.toList, Above bound entry.1) ∧
        fields.toList.Pairwise fun entry later => entry.1 < later.1 := by
    intro bound fields
    induction fields with
    | nil => simp [toList]
    | cons name above value rest ih =>
      refine ⟨fun entry he => ?_, List.pairwise_cons.2 ⟨fun later hl => ih.1 later hl, ih.2⟩⟩
      rcases List.mem_cons.1 he with rfl | he
      · exact above
      · exact above_of_lt above (ih.1 entry he)
  exact (key fields).2

end Fields

end JsonShorthand
