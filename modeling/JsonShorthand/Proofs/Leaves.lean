import Mathlib
import JsonShorthand.Proofs.Substitution
import JsonShorthand.Proofs.Trees

namespace JsonShorthand

namespace Value

def IsObject (v : Value) : Prop := ∃ fields, v = object fields

theorem IsScalar.not_isObject {v : Value} (h : v.IsScalar) : ¬ v.IsObject := by
  rintro ⟨fields, rfl⟩
  exact h

theorem isScalar_of_ofRaw? {text : String} {v : Value} (h : ofRaw? text = some v) :
    v.IsScalar := by
  unfold ofRaw? at h
  split_ifs at h
  case neg =>
    split at h
    · obtain rfl := Option.some.inj h
      trivial
    · obtain ⟨x, -, rfl⟩ := Option.map_eq_some_iff.1 h
      trivial
  all_goals
    obtain rfl := Option.some.inj h
    trivial

end Value

def Symbol.leaf? : Symbol → Option Generator
  | literal text => some (.value (.string text))
  | raw text => some (.value ((Value.ofRaw? text).getD .null))
  | var name => some (.var name)
  | _ => none

theorem Symbol.isScalar_of_leaf? {symbol : Symbol} {v : Value}
    (h : symbol.leaf? = some (.value v)) : v.IsScalar := by
  cases symbol with
  | literal text =>
    obtain rfl : Value.string text = v := by simpa [leaf?] using h
    trivial
  | raw text =>
    obtain rfl : (Value.ofRaw? text).getD .null = v := by simpa [leaf?] using h
    cases hraw : Value.ofRaw? text with
    | none => trivial
    | some w => exact Value.isScalar_of_ofRaw? hraw
  | _ => simp [leaf?] at h

namespace Grammar

open Generator (leavesOfElements)

/-- The leaves that symbols stand for. -/
def leavesOf (symbols : List Symbol) : List Generator := symbols.filterMap Symbol.leaf?

theorem leavesOf_mono {symbols others : List Symbol} (h : symbols ⊆ others) :
    leavesOf symbols ⊆ leavesOf others := by
  intro leaf hleaf
  obtain ⟨symbol, hsymbol, hyields⟩ := List.mem_filterMap.1 hleaf
  exact List.mem_filterMap.2 ⟨symbol, h hsymbol, hyields⟩

section Subset

variable {found : List Generator} {symbols others : List Symbol}

theorem subset_leavesOf_cons (h : found ⊆ leavesOf symbols) (symbol : Symbol) :
    found ⊆ leavesOf (symbol :: symbols) :=
  List.Subset.trans h (leavesOf_mono (List.subset_cons_self _ _))

theorem subset_leavesOf_append_left (h : found ⊆ leavesOf symbols) (others : List Symbol) :
    found ⊆ leavesOf (symbols ++ others) :=
  List.Subset.trans h (leavesOf_mono (List.subset_append_left _ _))

theorem subset_leavesOf_append_right (h : found ⊆ leavesOf others) (symbols : List Symbol) :
    found ⊆ leavesOf (symbols ++ others) :=
  List.Subset.trans h (leavesOf_mono (List.subset_append_right _ _))

end Subset

theorem leaves_single (name : String) (generator : Generator) :
    (Generator.single name generator).leaves = generator.leaves := by
  simp [Generator.single, Generator.leaves, Generator.leavesOfFields]

theorem leaves_addList_subset {entries : List (String × Generator)} {others : List Generator}
    (h : ∀ entry ∈ entries, entry.2.leaves ⊆ others) :
    (Generator.object (Fields.addList .nil entries)).leaves ⊆ others := by
  intro leaf hleaf
  rcases Generator.mem_leaves_addList hleaf with hnil | ⟨entry, hentry, hleaf⟩
  · simp [Generator.leaves, Generator.leavesOfFields] at hnil
  · exact h entry hentry hleaf

mutual

theorem Term.leaves_subset : ∀ term : Term, term.denote.leaves ⊆ leavesOf term.symbols
  | .literal _ | .var _ | .raw _ => List.Subset.refl _
  | .group group => group.leaves_subset

theorem Group.leaves_subset : ∀ group : Group, group.denote.leaves ⊆ leavesOf group.symbols
  | .object members =>
    have hmembers := leaves_addList_subset members.leaves_subset
    subset_leavesOf_cons (subset_leavesOf_append_left hmembers _) _
  | .array elements => subset_leavesOf_cons (subset_leavesOf_append_left elements.leaves_subset _) _

theorem Tail.leaves_subset : ∀ tail : Tail, tail.denote.leaves ⊆ leavesOf tail.symbols
  | .assign value => subset_leavesOf_cons value.leaves_subset _
  | .path name tail => by
    have htail := tail.leaves_subset
    rw [← leaves_single name] at htail
    exact subset_leavesOf_cons (subset_leavesOf_cons htail _) _

theorem Members.leaves_subset : ∀ members : Members,
    ∀ entry ∈ members.entries, entry.2.leaves ⊆ leavesOf members.symbols
  | .nil, _, hentry => nomatch hentry
  | .cons name tail rest, entry, hentry => by
    apply subset_leavesOf_cons
    rcases List.mem_cons.1 hentry with rfl | hentry
    · exact subset_leavesOf_append_left tail.leaves_subset _
    · exact subset_leavesOf_append_right (rest.leaves_subset entry hentry) _

theorem Elements.leaves_subset : ∀ elements : Elements,
    leavesOfElements elements.denote ⊆ leavesOf elements.symbols
  | .nil => List.Subset.refl _
  | .term value rest => by
    apply List.append_subset.2
    exact ⟨subset_leavesOf_append_left value.leaves_subset _,
      subset_leavesOf_append_right rest.leaves_subset _⟩
  | .field name tail rest => by
    have htail := tail.leaves_subset
    rw [← leaves_single name] at htail
    apply subset_leavesOf_cons
    apply List.append_subset.2
    exact ⟨subset_leavesOf_append_left htail _, subset_leavesOf_append_right rest.leaves_subset _⟩

end

/-- Each leaf of a text comes from one of its symbols. -/
theorem Text.leaves_subset (text : Text) :
    ∀ generator ∈ text.denote, generator.leaves ⊆ leavesOf text.symbols := by
  cases text with
  | groups first rest =>
    intro generator hgenerator
    obtain ⟨group, hgroup, rfl⟩ := List.mem_map.1 hgenerator
    have hsymbols : group.symbols ⊆ (groups first rest).symbols := by
      intro symbol hsymbol
      rw [symbols, ← List.flatMap_cons]
      exact List.mem_flatMap.2 ⟨group, hgroup, hsymbol⟩
    exact List.Subset.trans group.leaves_subset (leavesOf_mono hsymbols)
  | fields members =>
    intro generator hgenerator
    obtain rfl := List.mem_singleton.1 hgenerator
    exact leaves_addList_subset members.leaves_subset

theorem isScalar_of_readForest {input : String} {forest : Forest}
    (h : readForest input = .ok forest) {generator : Generator}
    (hgenerator : generator ∈ forest) {v : Value} (hv : .value v ∈ generator.leaves) :
    v.IsScalar := by
  obtain ⟨symbols, text, -, -, rfl⟩ := (readForest_eq_ok_iff _ _).1 h
  obtain ⟨symbol, -, hleaf⟩ := List.mem_filterMap.1 (text.leaves_subset generator hgenerator hv)
  exact Symbol.isScalar_of_leaf? hleaf

end Grammar

theorem Symbol.isScalar_of_scalar {symbol : Symbol} {v : Value} (h : symbol.scalar = .ok v) :
    v.IsScalar := by
  have hleaf : symbol.leaf? = some (.value v) := by
    cases symbol with
    | literal text => simpa [scalar, leaf?] using h
    | raw text => cases hraw : Value.ofRaw? text <;> simp_all [scalar, leaf?]
    | _ => contradiction
  exact isScalar_of_leaf? hleaf

theorem isScalar_of_readScalar {input : String} {v : Value} (h : readScalar input = .ok v) :
    v.IsScalar := by
  obtain ⟨symbol, -, hscalar⟩ := (readScalar_eq_ok_iff _ _).1 h
  exact Symbol.isScalar_of_scalar hscalar

theorem isScalar_of_readSubstitution {argument name : String} {v : Value}
    (h : readSubstitution argument = .ok (name, v)) : v.IsScalar := by
  obtain ⟨text, -, -, -, hread⟩ := readSubstitution_eq_ok_iff.1 h
  exact isScalar_of_readScalar hread

theorem Bindings.isScalar_of_addSubstitutions {bindings more : Bindings}
    (hbindings : ∀ name v, bindings.get? name = some v → v.IsScalar) {arguments : List String}
    (h : bindings.addSubstitutions arguments = .ok more) :
    ∀ name v, more.get? name = some v → v.IsScalar := by
  induction arguments generalizing bindings with
  | nil =>
    obtain rfl := Except.ok.inj h
    exact hbindings
  | cons argument arguments ih =>
    cases hread : readSubstitution argument with
    | error error => simp [addSubstitutions, hread] at h
    | ok binding =>
      apply ih _ (by simpa [addSubstitutions, hread] using h)
      intro other w hother
      by_cases hname : other = binding.1
      · obtain rfl : binding.2 = w := by simpa [hname] using hother
        exact isScalar_of_readSubstitution hread
      · rw [Fields.get?_insert_of_ne _ _ hname] at hother
        exact hbindings other w hother

theorem Bindings.isScalar_of_ofSubstitutions {arguments : List String} {bindings : Bindings}
    (h : ofSubstitutions arguments = .ok bindings) {name : String} {v : Value}
    (hv : bindings.get? name = some v) : v.IsScalar :=
  isScalar_of_addSubstitutions (by simp) h name v hv

end JsonShorthand
