import JsonShorthand.Proofs.Entries
import JsonShorthand.Proofs.Path

namespace JsonShorthand.Generator

/-- A path runs into something that is no object before it ends. -/
def CutsOff (generator : Generator) (path : List String) : Prop :=
  ∃ front reached, front <+: path ∧ front ≠ path ∧ generator.at? front = some reached ∧
    ¬ reached.IsObject

theorem cutsOff_of_not_isObject {generator : Generator} (h : ¬ generator.IsObject) (name : String)
    (path : List String) : generator.CutsOff (name :: path) :=
  ⟨[], generator, List.nil_prefix, (List.cons_ne_nil name path).symm, generator.at?_nil, h⟩

theorem object_cutsOff_cons_iff (fields : Fields Generator none) (name : String)
    (path : List String) :
    (object fields).CutsOff (name :: path) ↔
      ∃ child, fields.get? name = some child ∧ child.CutsOff path := by
  apply Iff.intro
  · rintro ⟨front, reached, hprefix, hne, hreached, hobject⟩
    cases front with
    | nil =>
      obtain rfl : object fields = reached := by simpa using hreached
      exact absurd ⟨fields, rfl⟩ hobject
    | cons other front =>
      obtain ⟨rfl, hfront⟩ := List.cons_prefix_cons.1 hprefix
      rw [object_at?_cons] at hreached
      obtain ⟨child, hchild, hreached⟩ := Option.bind_eq_some_iff.1 hreached
      exact ⟨child, hchild, front, reached, hfront, by simpa using hne, hreached, hobject⟩
  · rintro ⟨child, hchild, front, reached, hprefix, hne, hreached, hobject⟩
    refine ⟨name :: front, reached, ?_, by simpa using hne, ?_, hobject⟩
    · exact List.cons_prefix_cons.2 ⟨rfl, hprefix⟩
    · simpa [hchild] using hreached

theorem get?_addAll_eq (earlier later : Fields Generator none) (name : String) :
    (earlier.addAll later).get? name =
      match earlier.get? name, later.get? name with
      | some first, some second => some (first.merge second)
      | first, none => first
      | none, second => second := by
  rw [Fields.get?_addAll]
  cases earlier.get? name <;> cases later.get? name <;> rfl

/-- What merging has made of a path. -/
structure MergedAt (earlier later merged : Generator) (path : List String) : Prop where
  both {first second : Fields Generator none} (hfirst : earlier.at? path = some (object first))
    (hsecond : later.at? path = some (object second)) :
    merged.at? path = some (object (first.addAll second))
  replaced {second : Generator} (hsecond : later.at? path = some second)
    (h : ∀ first, earlier.at? path = some first → ¬ (first.IsObject ∧ second.IsObject)) :
    merged.at? path = some second
  kept (hsecond : later.at? path = none) (h : ¬ later.CutsOff path) :
    merged.at? path = earlier.at? path
  cut (hsecond : later.at? path = none) (h : later.CutsOff path) : merged.at? path = none

namespace MergedAt

variable {earlier later merged : Generator} {path : List String}

theorem congr (h : MergedAt earlier later merged path) {first second third : Generator}
    {other : List String} (hfirst : first.at? other = earlier.at? path)
    (hsecond : second.at? other = later.at? path) (hthird : third.at? other = merged.at? path)
    (hcut : second.CutsOff other ↔ later.CutsOff path) : MergedAt first second third other where
  both hx hy := by
    rw [hthird]
    exact h.both (hfirst ▸ hx) (hsecond ▸ hy)
  replaced hy hne := by
    rw [hthird]
    exact h.replaced (hsecond ▸ hy) fun x hx => hne x (hfirst.trans hx)
  kept hy hne := by
    rw [hthird, hfirst]
    exact h.kept (hsecond ▸ hy) fun hcuts => hne (hcut.2 hcuts)
  cut hy hcuts := by
    rw [hthird]
    exact h.cut (hsecond ▸ hy) (hcut.1 hcuts)

theorem of_earlier_none (h : earlier.at? path = none) (hmerged : merged.at? path = later.at? path) :
    MergedAt earlier later merged path where
  both hx _ := by simp [h] at hx
  replaced hy _ := hmerged.trans hy
  kept hy _ := by rw [hmerged, hy, h]
  cut hy _ := hmerged.trans hy

theorem of_cutsOff (h : later.at? path = none) (hcut : later.CutsOff path)
    (hmerged : merged.at? path = none) : MergedAt earlier later merged path where
  both _ hy := by simp [h] at hy
  replaced hy _ := by simp [h] at hy
  kept _ hne := absurd hcut hne
  cut _ _ := hmerged

theorem of_later_none (h : later.at? path = none) (hcut : ¬ later.CutsOff path)
    (hmerged : merged.at? path = earlier.at? path) : MergedAt earlier later merged path where
  both _ hy := by simp [h] at hy
  replaced hy _ := by simp [h] at hy
  kept _ _ := hmerged
  cut _ hcuts := absurd hcuts hcut

theorem nil (earlier later : Generator) : MergedAt earlier later (earlier.merge later) [] where
  both hx hy := by
    obtain rfl := Option.some.inj (earlier.at?_nil.symm.trans hx)
    obtain rfl := Option.some.inj (later.at?_nil.symm.trans hy)
    rw [merge_object, at?_nil]
  replaced hy hne := by
    obtain rfl := Option.some.inj (later.at?_nil.symm.trans hy)
    have hobjects := Classical.not_and_iff_not_or_not.1 (hne earlier earlier.at?_nil)
    rw [merge_of_not_isObject hobjects, at?_nil]
  kept hy _ := by simp at hy
  cut hy _ := by simp at hy

theorem cons {first second : Fields Generator none} {name : String} {path : List String}
    (ih : ∀ x y, first.get? name = some x → second.get? name = some y →
      MergedAt x y (x.merge y) path) :
    MergedAt (object first) (object second) ((object first).merge (object second))
      (name :: path) := by
  have hmerged : ((object first).merge (object second)).at? (name :: path) =
      ((first.addAll second).get? name).bind fun child => child.at? path := rfl
  rw [get?_addAll_eq] at hmerged
  cases hy : second.get? name with
  | none =>
    have hcut : ¬ (object second).CutsOff (name :: path) := by
      simp [object_cutsOff_cons_iff, hy]
    apply of_later_none (by simp [hy]) hcut
    cases hx : first.get? name <;> simp [hmerged, hx, hy]
  | some y =>
    cases hx : first.get? name with
    | none => exact of_earlier_none (by simp [hx]) (by simp [hmerged, hx, hy])
    | some x =>
      apply (ih x y hx hy).congr
      · simp [hx]
      · simp [hy]
      · simp [hmerged, hx, hy]
      · simp [object_cutsOff_cons_iff, hy]

end MergedAt

theorem mergedAt_merge (earlier later : Generator) (path : List String) :
    MergedAt earlier later (earlier.merge later) path := by
  -- the sides go down the path together as long as both are objects and have its next name
  induction path generalizing earlier later with
  | nil => exact .nil earlier later
  | cons name path ih =>
    by_cases hlater : later.IsObject
    · obtain ⟨second, rfl⟩ := hlater
      by_cases hearlier : earlier.IsObject
      · obtain ⟨first, rfl⟩ := hearlier
        exact .cons fun x y _ _ => ih x y
      · rw [merge_of_not_isObject (.inl hearlier)]
        exact .of_earlier_none (at?_cons_of_not_isObject hearlier name path) rfl
    · have hnone := at?_cons_of_not_isObject hlater name path
      rw [merge_of_not_isObject (.inr hlater)]
      exact .of_cutsOff hnone (cutsOff_of_not_isObject hlater name path) hnone

/-- Below an object that the later generator has nothing against, what the earlier one has stays,
except that its objects may have grown. -/
theorem MergedAt.exists_kept {earlier later merged : Generator} {path : List String}
    (h : MergedAt earlier later merged path) {first : Generator}
    (hfirst : earlier.at? path = some first) (hcut : ¬ later.CutsOff path)
    (hobject : ∀ second, later.at? path = some second → first.IsObject ∧ second.IsObject) :
    ∃ reached, merged.at? path = some reached ∧
      (reached = first ∨ first.IsObject ∧ reached.IsObject) := by
  cases hlater : later.at? path with
  | none => exact ⟨first, (h.kept hlater hcut).trans hfirst, .inl rfl⟩
  | some second =>
    obtain ⟨⟨xs, rfl⟩, ⟨ys, rfl⟩⟩ := hobject second hlater
    exact ⟨_, h.both hfirst hlater, .inr ⟨⟨xs, rfl⟩, ⟨_, rfl⟩⟩⟩

theorem get?_addAll_ne_none_iff (earlier later : Fields Generator none) (name : String) :
    (earlier.addAll later).get? name ≠ none ↔
      earlier.get? name ≠ none ∨ later.get? name ≠ none := by
  rw [get?_addAll_eq]
  cases earlier.get? name <;> cases later.get? name <;> simp

/-- What merging makes of a path, in four cases. So nothing of the later generator is lost; of the
earlier one only what is below or at a place where the later one has no object, or what is no object
and has to make room; and objects that both reach have the fields of both. -/
theorem merge_path_by_path (earlier later : Generator) (path : List String) :
    let merged := earlier.merge later
    (∀ first second, earlier.at? path = some first → later.at? path = some second →
      first.IsObject → second.IsObject →
        ∃ reached, merged.at? path = some reached ∧ reached.IsObject) ∧
    (∀ second, later.at? path = some second →
      (∀ first, earlier.at? path = some first → ¬ (first.IsObject ∧ second.IsObject)) →
        merged.at? path = some second) ∧
    (later.at? path = none → ¬ later.CutsOff path → merged.at? path = earlier.at? path) ∧
    (later.at? path = none → later.CutsOff path → merged.at? path = none) ∧
    ((later.at? path).isSome → (merged.at? path).isSome) ∧
    (∀ first, earlier.at? path = some first → ¬ later.CutsOff path →
      (∀ second, later.at? path = some second → first.IsObject ∧ second.IsObject) →
        ∃ reached, merged.at? path = some reached ∧
          (reached = first ∨ first.IsObject ∧ reached.IsObject)) ∧
    (∀ first second, earlier.at? path = some (object first) →
      later.at? path = some (object second) →
        ∃ fields, merged.at? path = some (object fields) ∧ ∀ name,
          fields.get? name ≠ none ↔ first.get? name ≠ none ∨ second.get? name ≠ none) := by
  intro merged
  have hmerged : MergedAt earlier later merged path := mergedAt_merge earlier later path
  refine ⟨?_, ?_, hmerged.kept, hmerged.cut, ?_, ?_, ?_⟩
  · rintro _ _ hfirst hsecond ⟨first, rfl⟩ ⟨second, rfl⟩
    exact ⟨_, hmerged.both hfirst hsecond, ⟨_, rfl⟩⟩
  · intro second hsecond h
    exact hmerged.replaced hsecond h
  · intro hsome
    obtain ⟨second, hsecond⟩ := Option.isSome_iff_exists.1 hsome
    by_cases h : ∃ first, earlier.at? path = some first ∧ first.IsObject ∧ second.IsObject
    · obtain ⟨_, hfirst, ⟨first, rfl⟩, ⟨fields, rfl⟩⟩ := h
      rw [hmerged.both hfirst hsecond]
      rfl
    · rw [hmerged.replaced hsecond fun first hfirst hobjects => h ⟨first, hfirst, hobjects⟩]
      rfl
  · intro first hfirst hcut hobject
    exact hmerged.exists_kept hfirst hcut hobject
  · intro first second hfirst hsecond
    exact ⟨_, hmerged.both hfirst hsecond, get?_addAll_ne_none_iff first second⟩

/-- A variable in the place of an object cuts off what the object had, but nothing beside it. -/
theorem merge_path_by_path_variable :
    let earlier := single "a" (.object (.cons "b" trivial (single "c" (.value .null))
      (.cons "d" (show "b" < "d" by decide) (.var "y") .nil)))
    let merged := earlier.merge (chain ["a", "b"] (.var "x"))
    (∃ reached, merged.at? ["a"] = some reached ∧ reached.IsObject) ∧
      merged.at? ["a", "b"] = some (.var "x") ∧ merged.at? ["a", "d"] = some (.var "y") ∧
        merged.at? ["a", "b", "c"] = none := by
  intro earlier merged
  have hpath := merge_path_by_path earlier (chain ["a", "b"] (.var "x"))
  obtain ⟨hboth, -, -, -, -, -, -⟩ := hpath ["a"]
  obtain ⟨-, hreplaced, -, -, -, -, -⟩ := hpath ["a", "b"]
  obtain ⟨-, -, hkept, -, -, -, -⟩ := hpath ["a", "d"]
  obtain ⟨-, -, -, hcut, -, -, -⟩ := hpath ["a", "b", "c"]
  have hbeside : ¬ (chain ["a", "b"] (.var "x")).CutsOff ["a", "d"] := by
    simp [chain, single, object_cutsOff_cons_iff, Fields.get?]
  have hbelow : (chain ["a", "b"] (.var "x")).CutsOff ["a", "b", "c"] :=
    ⟨["a", "b"], .var "x", by simp, by simp, rfl, by simp [IsObject]⟩
  refine ⟨hboth _ _ rfl rfl ⟨_, rfl⟩ ⟨_, rfl⟩, hreplaced _ rfl ?_, hkept rfl hbeside,
    hcut rfl hbelow⟩
  rintro _ _ ⟨-, hobject⟩
  simp [IsObject] at hobject

end JsonShorthand.Generator
