import JsonShorthand.Proofs.Leaves

namespace JsonShorthand

mutual

/-- Two objects make the object of all their fields, in which values under one name are merged; of
any other pair the later one stays. -/
def Value.merge (earlier : Value) : Value → Value
  | .object fields =>
    match earlier with
    | .object present => .object (present.union fields)
    | _ => .object fields
  | later => later

def Fields.union (earlier : Fields Value none) {bound : Option String} :
    Fields Value bound → Fields Value none
  | .nil => earlier
  | .cons name _ later rest =>
    Fields.union
      (earlier.alter name (Fields.above_none name) fun
        | none => later
        | some present => present.merge later)
      rest

end

theorem Value.merge_of_not_isObject {earlier later : Value}
    (h : ¬ earlier.IsObject ∨ ¬ later.IsObject) : earlier.merge later = later := by
  cases later with
  | object fields =>
    cases earlier with
    | object present => simp [IsObject] at h
    | _ => simp [merge]
  | _ => simp [merge]

theorem Fields.union_eq_storeList (earlier : Fields Value none) {bound : Option String}
    (later : Fields Value bound) :
    earlier.union later =
      earlier.storeList (fun later present => present.elim later (·.merge later)) later.toList := by
  induction later generalizing earlier with
  | nil => simp [union, toList]
  | cons name above later rest ih =>
    rw [union, ih, toList, storeList_cons]
    congr 2
    funext present
    cases present <;> rfl

theorem Fields.get?_union (earlier : Fields Value none) {bound : Option String}
    (later : Fields Value bound) (name : String) :
    (earlier.union later).get? name =
      match earlier.get? name, later.get? name with
      | some v, some w => some (v.merge w)
      | some v, none => some v
      | none, w => w := by
  rw [union_eq_storeList, get?_storeList_toList]
  cases earlier.get? name <;> cases later.get? name <;> rfl

namespace Generator

/-- A leaf that is a value is no object. -/
def NoObjectLeaf (generator : Generator) : Prop := ∀ v, value v ∈ generator.leaves → ¬ v.IsObject

theorem NoObjectLeaf.get? {fields : Fields Generator none} (h : (object fields).NoObjectLeaf)
    {name : String} {generator : Generator} (hget : fields.get? name = some generator) :
    generator.NoObjectLeaf := by
  intro v hv
  exact h v (mem_leaves_object_iff.2 ⟨name, generator, hget, hv⟩)

variable {bindings : Bindings}

theorem not_isObject_evaluate {generator : Generator}
    (hbindings : ∀ name v, bindings.get? name = some v → ¬ v.IsObject)
    (h : generator.NoObjectLeaf) (hgenerator : ¬ generator.IsObject) :
    ¬ (generator.evaluate bindings).IsObject := by
  cases generator with
  | value v => exact h v (by simp [leaves])
  | var name =>
    cases hget : bindings.get? name with
    | none => simp [evaluate, hget, Value.IsObject]
    | some v => simpa [evaluate, hget] using hbindings name v hget
  | object fields => exact absurd ⟨fields, rfl⟩ hgenerator
  | array elements => simp [evaluate, Value.IsObject]

theorem evaluate_merge_of_not_isObject
    (hbindings : ∀ name v, bindings.get? name = some v → ¬ v.IsObject) {earlier later : Generator}
    (hearlier : earlier.NoObjectLeaf) (hlater : later.NoObjectLeaf)
    (h : ¬ earlier.IsObject ∨ ¬ later.IsObject) :
    (earlier.merge later).evaluate bindings =
      (earlier.evaluate bindings).merge (later.evaluate bindings) := by
  have hvalues : ¬ (earlier.evaluate bindings).IsObject ∨ ¬ (later.evaluate bindings).IsObject :=
    h.imp (not_isObject_evaluate hbindings hearlier) (not_isObject_evaluate hbindings hlater)
  rw [merge_of_not_isObject h, Value.merge_of_not_isObject hvalues]

theorem evaluate_merge_of_noObjectLeaf
    (hbindings : ∀ name v, bindings.get? name = some v → ¬ v.IsObject) {earlier later : Generator}
    (hearlier : earlier.NoObjectLeaf) (hlater : later.NoObjectLeaf) :
    (earlier.merge later).evaluate bindings =
      (earlier.evaluate bindings).merge (later.evaluate bindings) := by
  induction later using induction generalizing earlier with
  | object fields ih =>
    by_cases h : earlier.IsObject
    · obtain ⟨present, rfl⟩ := h
      rw [merge_object, evaluate, evaluate, evaluate, Value.merge]
      congr 1
      -- each name is in one of the objects, or in both, before evaluation just as after it
      apply Fields.ext
      intro name
      simp only [evaluateFields_eq_map, Fields.get?_map, Fields.get?_addAll, Fields.get?_union]
      cases hfirst : present.get? name with
      | none => cases fields.get? name <;> rfl
      | some first =>
        cases hsecond : fields.get? name with
        | none => rfl
        | some second =>
          have hmerge := ih name second hsecond (hearlier.get? hfirst) (hlater.get? hsecond)
          simpa [Fields.mergeInto] using hmerge
    · exact evaluate_merge_of_not_isObject hbindings hearlier hlater (.inl h)
  | _ => exact evaluate_merge_of_not_isObject hbindings hearlier hlater (.inr nofun)

/-- Merging before evaluation and after it come to the same, unless an object stands at a leaf or is
bound to a variable, which it never is in what is read. -/
theorem evaluate_merge :
    (∀ (bindings : Bindings) (earlier later : Generator),
      (∀ name v, bindings.get? name = some v → ¬ v.IsObject) → earlier.NoObjectLeaf →
        later.NoObjectLeaf → (earlier.merge later).evaluate bindings =
          (earlier.evaluate bindings).merge (later.evaluate bindings)) ∧
    (∀ input forest, readForest input = .ok forest →
      ∀ generator ∈ forest, generator.NoObjectLeaf) ∧
    (∀ substitutions bindings, Bindings.ofSubstitutions substitutions = .ok bindings →
      ∀ name v, bindings.get? name = some v → ¬ v.IsObject) := by
  refine ⟨?_, ?_, ?_⟩
  · intro bindings earlier later hbindings hearlier hlater
    exact evaluate_merge_of_noObjectLeaf hbindings hearlier hlater
  · intro input forest hread generator hgenerator v hv
    exact (Grammar.isScalar_of_readForest hread hgenerator hv).not_isObject
  · intro substitutions bindings hbindings name v hv
    exact (Bindings.isScalar_of_ofSubstitutions hbindings hv).not_isObject

theorem evaluate_merge_variable :
    ∃ earlier later bindings, readForest "a.b=$x a.c=:1" = .ok [earlier] ∧
      readForest "a.b.d=$x" = .ok [later] ∧ Bindings.ofSubstitutions ["x=on"] = .ok bindings ∧
      (earlier.merge later).evaluate bindings =
        (earlier.evaluate bindings).merge (later.evaluate bindings) := by
  have hearlier : readForest "a.b=$x a.c=:1" =
      .ok [.single "a" (.object (.cons "b" trivial (.var "x")
        (.cons "c" (show "b" < "c" by decide) (.value (.integer 1)) .nil)))] := by
    cbv
  have hlater : readForest "a.b.d=$x" =
      .ok [.single "a" (.single "b" (.single "d" (.var "x")))] := by cbv
  have hbindings : Bindings.ofSubstitutions ["x=on"] =
      .ok (.cons "x" trivial (.string "on") .nil) := by cbv
  refine ⟨_, _, _, hearlier, hlater, hbindings, ?_⟩
  apply evaluate_merge.1
  · exact evaluate_merge.2.2 _ _ hbindings
  · exact evaluate_merge.2.1 _ _ hearlier _ List.mem_cons_self
  · exact evaluate_merge.2.1 _ _ hlater _ List.mem_cons_self

end Generator

end JsonShorthand
