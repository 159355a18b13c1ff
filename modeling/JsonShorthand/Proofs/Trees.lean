import JsonShorthand.Proofs.Entries
import JsonShorthand.Proofs.Path

namespace JsonShorthand

theorem Fields.forall_get?_cons {α : Type} {p : α → Prop} {bound : Option String} {name : String}
    {above : Above bound name} {value : α} {rest : Fields α (some name)} (hvalue : p value)
    (hrest : ∀ query other, rest.get? query = some other → p other) :
    ∀ query other, (cons name above value rest).get? query = some other → p other := by
  intro query other h
  by_cases hquery : query = name
  · obtain rfl : value = other := by simpa [get?, hquery] using h
    exact hvalue
  · exact hrest query other (by simpa [get?, hquery] using h)

theorem Generator.induction {motive : Generator → Prop} (value : ∀ v, motive (value v))
    (var : ∀ name, motive (var name))
    (object : ∀ fields, (∀ name generator, fields.get? name = some generator → motive generator) →
      motive (object fields))
    (array : ∀ elements, (∀ generator ∈ elements, motive generator) → motive (array elements)) :
    ∀ generator, motive generator :=
  @Generator.rec motive
    (fun _ fields => ∀ name generator, fields.get? name = some generator → motive generator)
    (fun elements => ∀ generator ∈ elements, motive generator)
    value var object array (by simp) (fun _ _ _ _ h hrest => Fields.forall_get?_cons h hrest)
    (by simp) (fun _ _ h hrest => List.forall_mem_cons.2 ⟨h, hrest⟩)

def Value.IsScalar : Value → Prop
  | array _ | object _ => False
  | _ => True

theorem Value.induction {motive : Value → Prop} (scalar : ∀ v : Value, v.IsScalar → motive v)
    (array : ∀ elements, (∀ v ∈ elements, motive v) → motive (array elements))
    (object : ∀ fields, (∀ name v, fields.get? name = some v → motive v) →
      motive (object fields)) : ∀ v, motive v :=
  @Value.rec motive (fun elements => ∀ v ∈ elements, motive v)
    (fun _ fields => ∀ name v, fields.get? name = some v → motive v)
    (scalar null trivial) (fun b => scalar (.boolean b) trivial)
    (fun x => scalar (.float x) trivial) (fun n => scalar (.integer n) trivial)
    (fun s => scalar (.string s) trivial) array object (by simp)
    (fun _ _ h hrest => List.forall_mem_cons.2 ⟨h, hrest⟩) (by simp)
    (fun _ _ _ _ h hrest => Fields.forall_get?_cons h hrest)

namespace Generator

mutual

/-- The values and the variables in a generator, from left to right. -/
def leaves : Generator → List Generator
  | object fields => leavesOfFields fields
  | array elements => leavesOfElements elements
  | leaf => [leaf]

def leavesOfFields {bound : Option String} : Fields Generator bound → List Generator
  | .nil => []
  | .cons _ _ generator rest => leaves generator ++ leavesOfFields rest

def leavesOfElements : List Generator → List Generator
  | [] => []
  | generator :: rest => leaves generator ++ leavesOfElements rest

end

theorem leavesOfFields_eq {bound : Option String} (fields : Fields Generator bound) :
    leavesOfFields fields = fields.toList.flatMap fun entry => entry.2.leaves := by
  induction fields with
  | nil => rfl
  | cons name above generator rest ih => simp [leavesOfFields, Fields.toList, ih]

theorem leavesOfElements_eq (elements : List Generator) :
    leavesOfElements elements = elements.flatMap leaves := by
  induction elements with
  | nil => rfl
  | cons generator rest ih => simp [leavesOfElements, ih]

theorem mem_leaves_object_iff {leaf : Generator} {fields : Fields Generator none} :
    leaf ∈ (object fields).leaves ↔
      ∃ name generator, fields.get? name = some generator ∧ leaf ∈ generator.leaves := by
  simp [leaves, leavesOfFields_eq, ← Fields.mem_toList_iff]

theorem mem_leaves_merge {leaf later earlier : Generator}
    (h : leaf ∈ (earlier.merge later).leaves) : leaf ∈ earlier.leaves ∨ leaf ∈ later.leaves := by
  induction later using induction generalizing earlier with
  | value v => exact .inr h
  | var name => exact .inr h
  | array elements => exact .inr h
  | object fields ih =>
    cases earlier with
    | object present =>
      rw [merge_object, mem_leaves_object_iff] at h
      obtain ⟨name, generator, hget, hleaf⟩ := h
      rw [Fields.get?_addAll] at hget
      rw [mem_leaves_object_iff, mem_leaves_object_iff]
      cases hlater : fields.get? name with
      | none => exact .inl ⟨name, generator, by simpa [hlater] using hget, hleaf⟩
      | some later =>
        cases hpresent : present.get? name with
        | none =>
          obtain rfl : later = generator := by
            simpa [hlater, hpresent, Fields.mergeInto] using hget
          exact .inr ⟨name, later, hlater, hleaf⟩
        | some first =>
          obtain rfl : first.merge later = generator := by
            simpa [hlater, hpresent, Fields.mergeInto] using hget
          rcases ih name later hlater hleaf with hfirst | hsecond
          · exact .inl ⟨name, first, hpresent, hfirst⟩
          · exact .inr ⟨name, later, hlater, hsecond⟩
    | _ => exact .inr h

theorem mem_leaves_add {leaf : Generator} {fields : Fields Generator none} {name : String}
    {later : Generator} (h : leaf ∈ (object (fields.add name later)).leaves) :
    leaf ∈ (object fields).leaves ∨ leaf ∈ later.leaves := by
  have hsingle : leaf ∈ (single name later).leaves ↔ leaf ∈ later.leaves := by
    simp [single, leaves, leavesOfFields]
  rw [← hsingle]
  exact mem_leaves_merge h

theorem mem_leaves_addList {leaf : Generator} {entries : List (String × Generator)}
    {fields : Fields Generator none} (h : leaf ∈ (object (fields.addList entries)).leaves) :
    leaf ∈ (object fields).leaves ∨ ∃ entry ∈ entries, leaf ∈ entry.2.leaves := by
  induction entries generalizing fields with
  | nil => exact .inl h
  | cons entry entries ih =>
    rcases ih h with hfirst | ⟨other, hother, hleaf⟩
    · rcases mem_leaves_add hfirst with hfields | hentry
      · exact .inl hfields
      · exact .inr ⟨entry, List.mem_cons_self, hentry⟩
    · exact .inr ⟨other, List.mem_cons_of_mem _ hother, hleaf⟩

end Generator

end JsonShorthand
