import JsonShorthand.Proofs.MergePath
import JsonShorthand.Proofs.Trees

namespace JsonShorthand

namespace Fields

variable {earlier later : Fields Generator none} {name : String}

theorem get?_addAll_of_none (h : later.get? name = none) :
    (earlier.addAll later).get? name = earlier.get? name := by
  rw [get?_addAll, h, Option.map_none, Option.none_or]

theorem get?_addAll_of_some {second : Generator} (h : later.get? name = some second) :
    (earlier.addAll later).get? name =
      some (((earlier.get? name).getD (.value .null)).merge second) := by
  rw [get?_addAll, h, Option.map_some, Option.some_or]
  cases earlier.get? name with
  | none => cases second <;> rfl
  | some first => rfl

@[simp] theorem nil_addAll (fields : Fields Generator none) : addAll .nil fields = fields := by
  rw [addAll_eq_addList, addList_of_perm (List.Perm.refl _)]

end Fields

namespace Generator

theorem merge_object_eq (earlier : Generator) (fields : Fields Generator none) :
    earlier.merge (object fields) = object (earlier.fieldsOf.addAll fields) := by
  cases earlier with
  | object present => rfl
  | _ => exact congrArg object (Fields.nil_addAll fields).symm

/-- At a path that all three reach, the second one parts an object of the first from an object of
the third, into which the first would not have merged without a trace. -/
def PartedAt (first second third : Generator) (path : List String) : Prop :=
  ∃ x y z, first.at? path = some x ∧ second.at? path = some y ∧ third.at? path = some z ∧
    x.IsObject ∧ ¬ y.IsObject ∧ z.IsObject ∧ x.merge z ≠ z

theorem isObject_of_at? {generator reached : Generator} {path : List String}
    (h : generator.at? path = some reached) (hreached : reached.IsObject) : generator.IsObject := by
  cases path with
  | nil =>
    obtain rfl : generator = reached := by simpa using h
    exact hreached
  | cons name path =>
    apply Classical.byContradiction
    intro hobject
    simp [at?_cons_of_not_isObject hobject] at h

variable {first second third : Generator} {path : List String}

theorem PartedAt.isObject (h : PartedAt first second third path) :
    first.IsObject ∧ third.IsObject := by
  obtain ⟨x, y, z, hx, -, hz, hfirst, -, hthird, -⟩ := h
  exact ⟨isObject_of_at? hx hfirst, isObject_of_at? hz hthird⟩

theorem partedAt_nil_iff :
    PartedAt first second third [] ↔
      first.IsObject ∧ ¬ second.IsObject ∧ third.IsObject ∧ first.merge third ≠ third := by
  simp [PartedAt]

theorem exists_partedAt_object_iff {xs ys zs : Fields Generator none} :
    (∃ path, PartedAt (object xs) (object ys) (object zs) path) ↔
      ∃ name x y z, xs.get? name = some x ∧ ys.get? name = some y ∧ zs.get? name = some z ∧
        ∃ path, PartedAt x y z path := by
  apply Iff.intro
  · rintro ⟨path, hparted⟩
    cases path with
    | nil => exact absurd ⟨ys, rfl⟩ (partedAt_nil_iff.1 hparted).2.1
    | cons name path =>
      obtain ⟨a, b, c, ha, hb, hc, h⟩ := hparted
      obtain ⟨x, hx, ha⟩ := Option.bind_eq_some_iff.1 ha
      obtain ⟨y, hy, hb⟩ := Option.bind_eq_some_iff.1 hb
      obtain ⟨z, hz, hc⟩ := Option.bind_eq_some_iff.1 hc
      exact ⟨name, x, y, z, hx, hy, hz, path, a, b, c, ha, hb, hc, h⟩
  · rintro ⟨name, x, y, z, hx, hy, hz, path, a, b, c, ha, hb, hc, h⟩
    exact ⟨name :: path, a, b, c, by simp [hx, ha], by simp [hy, hb], by simp [hz, hc], h⟩

theorem exists_partedAt_iff_of_not_isObject (h : ¬ second.IsObject) :
    (∃ path, PartedAt first second third path) ↔ first.merge third ≠ third := by
  apply Iff.intro
  · rintro ⟨path, hparted⟩
    cases path with
    | nil => exact (partedAt_nil_iff.1 hparted).2.2.2
    | cons name path =>
      obtain ⟨_, _, _, -, hy, -⟩ := hparted
      simp [at?_cons_of_not_isObject h] at hy
  · intro hne
    have hobjects : first.IsObject ∧ third.IsObject := by
      apply Classical.byContradiction
      intro hobjects
      exact hne (merge_of_not_isObject (Classical.not_and_iff_not_or_not.1 hobjects))
    exact ⟨[], partedAt_nil_iff.2 ⟨hobjects.1, h, hobjects.2, hne⟩⟩

theorem merge_assoc_iff_of_not_isObject (h : ¬ second.IsObject) :
    (first.merge second).merge third = first.merge (second.merge third) ↔
      ¬ ∃ path, PartedAt first second third path := by
  rw [exists_partedAt_iff_of_not_isObject h, merge_of_not_isObject (.inr h),
    merge_of_not_isObject (.inl h), Classical.not_not]
  exact eq_comm

theorem merge_assoc_iff_of_not_both (h : ¬ (first.IsObject ∧ third.IsObject)) :
    (first.merge second).merge third = first.merge (second.merge third) ↔
      ¬ ∃ path, PartedAt first second third path := by
  have hnone : ¬ ∃ path, PartedAt first second third path := by
    rintro ⟨path, hparted⟩
    exact h hparted.isObject
  refine iff_of_true ?_ hnone
  rcases Classical.not_and_iff_not_or_not.1 h with hfirst | hthird
  · rw [merge_of_not_isObject (.inl hfirst), merge_of_not_isObject (.inl hfirst)]
  · rw [merge_of_not_isObject (.inr hthird), merge_of_not_isObject (.inr hthird),
      merge_of_not_isObject (.inr hthird)]

theorem addAll_assoc_iff {xs ys zs : Fields Generator none} :
    (xs.addAll ys).addAll zs = xs.addAll (ys.addAll zs) ↔
      ∀ name x y z, xs.get? name = some x → ys.get? name = some y → zs.get? name = some z →
        (x.merge y).merge z = x.merge (y.merge z) := by
  apply Iff.intro
  · intro h name x y z hx hy hz
    have hname := congrArg (fun fields => fields.get? name) h
    simpa [get?_addAll_eq, hx, hy, hz] using hname
  · intro h
    apply Fields.ext
    intro name
    simp only [get?_addAll_eq]
    cases hx : xs.get? name with
    | none => cases ys.get? name <;> cases zs.get? name <;> rfl
    | some x =>
      cases hy : ys.get? name with
      | none => cases zs.get? name <;> rfl
      | some y =>
        cases hz : zs.get? name with
        | none => rfl
        | some z => exact congrArg some (h name x y z hx hy hz)

/-- Three generators merge to the same in either way unless the second parts the others
somewhere. -/
theorem merge_assoc_iff (first second third : Generator) :
    (first.merge second).merge third = first.merge (second.merge third) ↔
      ¬ ∃ path, PartedAt first second third path := by
  -- all depends on the second one: where it is an object, three objects merge name by name
  induction second using induction generalizing first third with
  | object ys ih =>
    by_cases hobjects : first.IsObject ∧ third.IsObject
    · obtain ⟨⟨xs, rfl⟩, ⟨zs, rfl⟩⟩ := hobjects
      rw [merge_object, merge_object, merge_object, merge_object, object.injEq, addAll_assoc_iff,
        exists_partedAt_object_iff]
      apply Iff.intro
      · rintro hassoc ⟨name, x, y, z, hx, hy, hz, hparted⟩
        exact (ih name y hy x z).1 (hassoc name x y z hx hy hz) hparted
      · intro hnone name x y z hx hy hz
        apply (ih name y hy x z).2
        intro hparted
        exact hnone ⟨name, x, y, z, hx, hy, hz, hparted⟩
    · exact merge_assoc_iff_of_not_both hobjects
  | _ => exact merge_assoc_iff_of_not_isObject nofun

/-- Where both generators reach something, it is two objects or the same. -/
def Compatible (first second : Generator) : Prop :=
  ∀ path x y, first.at? path = some x → second.at? path = some y →
    x.IsObject ∧ y.IsObject ∨ x = y

theorem compatible_object_iff {xs ys : Fields Generator none} :
    Compatible (object xs) (object ys) ↔
      ∀ name x y, xs.get? name = some x → ys.get? name = some y → x.Compatible y := by
  apply Iff.intro
  · intro h name x y hx hy path a b ha hb
    exact h (name :: path) a b (by simp [hx, ha]) (by simp [hy, hb])
  · intro h path a b ha hb
    cases path with
    | nil =>
      rw [at?_nil, Option.some.injEq] at ha hb
      exact .inl ⟨⟨xs, ha.symm⟩, ⟨ys, hb.symm⟩⟩
    | cons name path =>
      obtain ⟨x, hx, ha⟩ := Option.bind_eq_some_iff.1 ha
      obtain ⟨y, hy, hb⟩ := Option.bind_eq_some_iff.1 hb
      exact h name x y hx hy path a b ha hb

theorem compatible_iff_eq (h : ¬ first.IsObject ∨ ¬ second.IsObject) :
    first.Compatible second ↔ first = second := by
  apply Iff.intro
  · intro hcompatible
    rcases hcompatible [] first second first.at?_nil second.at?_nil with ⟨hfirst, hsecond⟩ | heq
    · exact absurd hsecond (h.resolve_left (not_not_intro hfirst))
    · exact heq
  · rintro rfl path x y hx hy
    exact .inr (Option.some.inj (hx.symm.trans hy))

theorem merge_merge_of_not_isObject (h : ¬ first.IsObject ∨ ¬ second.IsObject)
    (present : Generator) : (present.merge first).merge second = second := by
  rcases h with hfirst | hsecond
  · rw [merge_of_not_isObject (.inr hfirst), merge_of_not_isObject (.inl hfirst)]
  · exact merge_of_not_isObject (.inr hsecond)

theorem merge_right_comm_iff_of_not_isObject (h : ¬ first.IsObject ∨ ¬ second.IsObject)
    (present : Generator) :
    (present.merge first).merge second = (present.merge second).merge first ↔
      first.Compatible second := by
  rw [merge_merge_of_not_isObject h, merge_merge_of_not_isObject h.symm, compatible_iff_eq h]
  exact eq_comm

theorem addAll_right_comm_iff {present xs ys : Fields Generator none} :
    (present.addAll xs).addAll ys = (present.addAll ys).addAll xs ↔
      ∀ name x y, xs.get? name = some x → ys.get? name = some y →
        let stored := (present.get? name).getD (.value .null)
        (stored.merge x).merge y = (stored.merge y).merge x := by
  apply Iff.intro
  · intro h name x y hx hy
    have hname := congrArg (fun fields => fields.get? name) h
    simpa [Fields.get?_addAll_of_some, hx, hy] using hname
  · intro h
    apply Fields.ext
    intro name
    cases hx : xs.get? name with
    | none =>
      cases hy : ys.get? name with
      | none => simp [Fields.get?_addAll_of_none, hx, hy]
      | some y => simp [Fields.get?_addAll_of_some hy, Fields.get?_addAll_of_none hx]
    | some x =>
      cases hy : ys.get? name with
      | none => simp [Fields.get?_addAll_of_some hx, Fields.get?_addAll_of_none hy]
      | some y => simpa [Fields.get?_addAll_of_some, hx, hy] using h name x y hx hy

/-- Whatever stands there already, two generators merge into it in either order just if they are
compatible: an object that is there hides nothing of what parts them. -/
theorem merge_right_comm_iff (present first second : Generator) :
    (present.merge first).merge second = (present.merge second).merge first ↔
      first.Compatible second := by
  -- something else is present under each name, so `present` is kept general
  induction second using induction generalizing present first with
  | object ys ih =>
    by_cases hfirst : first.IsObject
    · obtain ⟨xs, rfl⟩ := hfirst
      rw [merge_object_eq, merge_object_eq, merge_object_eq, merge_object_eq, object.injEq,
        compatible_object_iff]
      apply addAll_right_comm_iff.trans
      apply Iff.intro
      · intro h name x y hx hy
        exact (ih name y hy _ x).1 (h name x y hx hy)
      · intro h name x y hx hy
        exact (ih name y hy _ x).2 (h name x y hx hy)
    · exact merge_right_comm_iff_of_not_isObject (.inl hfirst) present
  | _ =>
    apply merge_right_comm_iff_of_not_isObject
    exact .inr nofun

end Generator

namespace Fields

open Generator

/-- Additions under two names commute, and additions under one name just if they are compatible. -/
theorem add_comm_iff (fields : Fields Generator none) (name other : String)
    (first second : Generator) :
    (name ≠ other →
      (fields.add name first).add other second = (fields.add other second).add name first) ∧
    ((fields.add name first).add name second = (fields.add name second).add name first ↔
      ∀ path x y, first.at? path = some x → second.at? path = some y →
        x.IsObject ∧ y.IsObject ∨ x = y) := by
  refine ⟨?_, ?_⟩
  · intro hne
    apply ext
    intro query
    by_cases hname : query = name
    · subst hname
      rw [get?_add_of_ne _ _ hne, get?_add_self_eq, get?_add_self_eq, get?_add_of_ne _ _ hne]
    · by_cases hother : query = other
      · subst hother
        rw [get?_add_of_ne _ _ hname, get?_add_self_eq, get?_add_self_eq, get?_add_of_ne _ _ hname]
      · simp [get?_add_of_ne, hname, hother]
  · have hmerge := merge_right_comm_iff ((fields.get? name).getD (.value .null)) first second
    refine Iff.trans ?_ hmerge
    apply Iff.intro
    · intro h
      have hname := congrArg (fun fields => fields.get? name) h
      simpa only [get?_add_self_eq, Option.getD_some, Option.some.injEq] using hname
    · intro h
      apply ext
      intro query
      by_cases hname : query = name
      · subst hname
        simp only [get?_add_self_eq, Option.getD_some, h]
      · simp [get?_add_of_ne, hname]

/-- Beside an array at `a`, two objects that part only at `c.d` can be told apart. -/
theorem add_comm_iff_nested :
    let fields := Fields.nil.add "a" (.array [])
    let first := chain ["c", "d"] (.var "x")
    let second := chain ["c", "d", "e"] (.value .null)
    (fields.add "a" first).add "b" second = (fields.add "b" second).add "a" first ∧
      (fields.add "a" first).add "a" second ≠ (fields.add "a" second).add "a" first := by
  intro fields first second
  refine ⟨(add_comm_iff fields "a" "b" first second).1 (by decide), fun h => ?_⟩
  have hpaths := (add_comm_iff fields "a" "a" first second).2.1 h
  rcases hpaths ["c", "d"] (.var "x") (single "e" (.value .null)) rfl rfl with ⟨hvar, -⟩ | heq
  · simp [IsObject] at hvar
  · simp [single] at heq

end Fields

end JsonShorthand
