import JsonShorthand.Proofs.Joining
import JsonShorthand.Proofs.MergeLaws

namespace JsonShorthand

namespace Generator

def mergeAll (present : Generator) (later : List Generator) : Generator := later.foldl merge present

@[simp] theorem mergeAll_nil (present : Generator) : present.mergeAll [] = present := rfl

theorem mergeAll_cons (present first : Generator) (later : List Generator) :
    present.mergeAll (first :: later) = (present.merge first).mergeAll later := rfl

/-- What stands there first matters only as the object to which fields are added. -/
theorem mergeAll_cases (later : List Generator) :
    later = [] ∨ (∃ result, ∀ present, mergeAll present later = result) ∨
      ∃ entries, ∀ present, mergeAll present later = object (present.fieldsOf.addList entries) := by
  induction later with
  | nil => exact .inl rfl
  | cons first later ih =>
    right
    by_cases hfirst : first.IsObject
    · obtain ⟨fields, rfl⟩ := hfirst
      have hmerge (present : Generator) : present.mergeAll (object fields :: later) =
          (object (present.fieldsOf.addList fields.toList)).mergeAll later := by
        rw [mergeAll_cons, merge_object_eq, Fields.addAll_eq_addList]
      rcases ih with rfl | ⟨result, hresult⟩ | ⟨entries, hentries⟩
      · exact .inr ⟨fields.toList, hmerge⟩
      · exact .inl ⟨result, fun present => (hmerge present).trans (hresult _)⟩
      · refine .inr ⟨fields.toList ++ entries, fun present => ?_⟩
        rw [hmerge, hentries, fieldsOf, Fields.addList_append]
    · refine .inl ⟨first.mergeAll later, fun present => ?_⟩
      rw [mergeAll_cons, merge_of_not_isObject (.inr hfirst)]

end Generator

namespace Fields

open Generator

variable {fields : Fields Generator none} {entries : List (String × Generator)} {name : String}

def under (name : String) (entries : List (String × Generator)) : List Generator :=
  entries.filterMap fun entry => if entry.1 = name then some entry.2 else none

@[simp] theorem under_nil (name : String) : under name [] = [] := rfl

@[simp] theorem under_cons_self (name : String) (generator : Generator)
    (entries : List (String × Generator)) :
    under name ((name, generator) :: entries) = generator :: under name entries := by
  simp [under]

theorem under_cons_of_ne {entry : String × Generator} (h : entry.1 ≠ name)
    (entries : List (String × Generator)) : under name (entry :: entries) = under name entries := by
  simp [under, h]

/-- Each name has what was merged under it alone. -/
theorem get?_addList (fields : Fields Generator none) (entries : List (String × Generator))
    (name : String) :
    (fields.addList entries).get? name =
      if (under name entries).isEmpty then fields.get? name
      else some (((fields.get? name).getD (.value .null)).mergeAll (under name entries)) := by
  induction entries generalizing fields with
  | nil => rfl
  | cons entry entries ih =>
    obtain ⟨other, generator⟩ := entry
    rw [addList_cons, ih]
    by_cases hname : other = name
    · subst hname
      rw [under_cons_self, get?_add_self_eq, Option.getD_some, mergeAll_cons]
      cases under other entries <;> rfl
    · rw [under_cons_of_ne hname, get?_add_of_ne _ _ (Ne.symm hname)]

theorem exists_mergeAll_of_get?_addList {generator : Generator}
    (h : (fields.addList entries).get? name = some generator) :
    ∃ present, mergeAll present (under name entries) = generator := by
  rw [get?_addList] at h
  split at h
  · next hempty =>
    rw [List.isEmpty_iff] at hempty
    exact ⟨generator, by rw [hempty, mergeAll_nil]⟩
  · exact ⟨_, Option.some.inj h⟩

/-- It is enough that the generators under each name change nothing when they come again. -/
theorem addList_replay_of
    (h : ∀ name generator, (fields.addList entries).get? name = some generator →
      generator.mergeAll (under name entries) = generator) :
    (fields.addList entries).addList entries = fields.addList entries := by
  apply ext
  intro name
  rw [get?_addList (fields.addList entries)]
  split
  · rfl
  · next hne =>
    have hsome := get?_addList fields entries name
    rw [if_neg hne] at hsome
    rw [hsome, Option.getD_some, h name _ hsome]

end Fields

namespace Generator

theorem mergeAll_replay_of {present : Generator} {later : List Generator}
    (h : ∀ fields entries, object (Fields.addList fields entries) = present.mergeAll later →
      (fields.addList entries).addList entries = fields.addList entries) :
    (present.mergeAll later).mergeAll later = present.mergeAll later := by
  rcases mergeAll_cases later with rfl | ⟨result, hresult⟩ | ⟨entries, hentries⟩
  · rfl
  · rw [hresult, hresult]
  · rw [hentries, hentries, fieldsOf, h _ entries (hentries present).symm]

theorem mergeAll_replay (present : Generator) (later : List Generator) :
    (present.mergeAll later).mergeAll later = present.mergeAll later := by
  -- the induction is on the outcome: below a name stands the outcome of what came under that name
  generalize hresult : present.mergeAll later = result
  induction result using induction generalizing present later with
  | object fields ih =>
    rw [← hresult]
    apply mergeAll_replay_of
    intro before entries heq
    obtain rfl : before.addList entries = fields := object.inj (heq.trans hresult)
    apply Fields.addList_replay_of
    intro name generator hgenerator
    obtain ⟨start, hstart⟩ := Fields.exists_mergeAll_of_get?_addList hgenerator
    exact ih name generator hgenerator start _ hstart
  | _ =>
    rw [← hresult]
    apply mergeAll_replay_of
    intro before entries heq
    simp [hresult] at heq

end Generator

theorem Fields.addList_replay (fields : Fields Generator none)
    (entries : List (String × Generator)) :
    (fields.addList entries).addList entries = fields.addList entries := by
  apply addList_replay_of
  intro name generator hgenerator
  obtain ⟨present, rfl⟩ := exists_mergeAll_of_get?_addList hgenerator
  exact Generator.mergeAll_replay present _

theorem Generator.merge_self (generator : Generator) : generator.merge generator = generator := by
  have hnull : (value .null).mergeAll [generator] = generator := merge_of_not_isObject (.inl nofun)
  have hreplay := mergeAll_replay (value .null) [generator]
  rwa [hnull] at hreplay

namespace Grammar

theorem readForest_join_self {input : String} {forest : Forest} (h : readForest input = .ok forest)
    (hfields : ¬ beginsGroup input) : readForest (input ++ " " ++ input) = .ok forest := by
  obtain ⟨last, hlast⟩ := exists_continuesFrom h h
  obtain ⟨symbols, hsymbols, haccept⟩ := exists_symbols_of_readForest h
  have hhead : ¬ symbols.head?.any Symbol.opensGroup := by
    rwa [beginsGroup, TokenStream.head?_of_symbols? hsymbols] at hfields
  obtain ⟨members, rfl⟩ := exists_members_of_accept haccept hhead
  obtain rfl := eq_of_accept_members haccept
  rw [(hlast.readForest_fields hfields hsymbols haccept).1, Fields.addList_replay]

end Grammar

/-- The same additions once more change nothing, nor does the same merge, nor the same fields. -/
theorem replay_changes_nothing :
    (∀ (fields : Fields Generator none) (entries : List (String × Generator)),
      (fields.addList entries).addList entries = fields.addList entries) ∧
    (∀ earlier later : Generator, (earlier.merge later).merge later = earlier.merge later) ∧
    (∀ generator : Generator, generator.merge generator = generator) ∧
    (∀ input forest, readForest input = .ok forest → ¬ beginsGroup input →
      readForest (input ++ " " ++ input) = .ok forest) := by
  refine ⟨Fields.addList_replay, ?_, Generator.merge_self, ?_⟩
  · intro earlier later
    exact Generator.mergeAll_replay earlier [later]
  · intro input forest h hfields
    exact Grammar.readForest_join_self h hfields

/-- A text that goes through a scalar and an empty object at `a` before it comes to its end. -/
theorem replay_changes_nothing_overwritten :
    readForest "a.b=:1 a=x a={} a.c=[$y]" =
        .ok [.single "a" (.single "c" (.array [.var "y"]))] ∧
      readForest ("a.b=:1 a=x a={} a.c=[$y]" ++ " " ++ "a.b=:1 a=x a={} a.c=[$y]") =
        .ok [.single "a" (.single "c" (.array [.var "y"]))] := by
  have hread : readForest "a.b=:1 a=x a={} a.c=[$y]" =
      .ok [.single "a" (.single "c" (.array [.var "y"]))] := by cbv
  exact ⟨hread, replay_changes_nothing.2.2.2 _ _ hread (by cbv; simp)⟩

end JsonShorthand
