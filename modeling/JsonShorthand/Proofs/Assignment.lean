import Mathlib
import JsonShorthand.Proofs.Path
import JsonShorthand.Proofs.Unambiguity

namespace JsonShorthand

structure Assignment where
  path : List String
  value : Generator

namespace Assignment

def Apart (a b : Assignment) : Prop := ¬ a.path <+: b.path ∧ ¬ b.path <+: a.path

/-- An assignment of a list that stands apart from all later ones. -/
def Survives (assignments : List Assignment) (a : Assignment) : Prop :=
  ∃ before after, assignments = before ++ a :: after ∧ ∀ b ∈ after, a.Apart b

def run (generator : Generator) (assignments : List Assignment) : Generator :=
  assignments.foldl (fun g a => g.merge (.chain a.path a.value)) generator

theorem run_append_singleton (generator : Generator) (assignments : List Assignment)
    (a : Assignment) :
    run generator (assignments ++ [a]) =
      (run generator assignments).merge (.chain a.path a.value) := by
  simp [run]

theorem survives_append_singleton_iff {assignments : List Assignment} {a b : Assignment} :
    Survives (assignments ++ [b]) a ↔ a = b ∨ (Survives assignments a ∧ a.Apart b) := by
  apply Iff.intro
  · intro h
    obtain ⟨before, after, heq, hafter⟩ := h
    cases after using List.reverseRecOn with
    | nil => exact .inl (by simpa using (List.append_inj' heq rfl).2.symm)
    | append_singleton after last =>
      rw [← List.cons_append, ← List.append_assoc] at heq
      obtain ⟨rfl, hlast⟩ := List.append_inj' heq rfl
      obtain rfl : b = last := by simpa using hlast
      exact .inr ⟨⟨before, after, rfl, fun c hc => hafter c (by simp [hc])⟩, hafter b (by simp)⟩
  · rintro (rfl | ⟨⟨before, after, rfl, hafter⟩, hb⟩)
    · exact ⟨assignments, [], rfl, by simp⟩
    · refine ⟨before, after ++ [b], by simp, fun c hc => ?_⟩
      rcases List.mem_append.1 hc with hc | hc
      · exact hafter c hc
      · exact List.mem_singleton.1 hc ▸ hb

/-- Of an assignment that survived, only one that stands apart from a path can lead elsewhere. -/
theorem exists_survives_value_iff (assignments : List Assignment) (b : Assignment)
    (query : List String) (g : Generator) :
    (∃ a, Survives (assignments ++ [b]) a ∧ a.path = query ∧ a.value = g) ↔
      (b.path = query ∧ b.value = g) ∨
      (¬ b.path <+: query ∧ ¬ query <+: b.path ∧
        ∃ a, Survives assignments a ∧ a.path = query ∧ a.value = g) := by
  simp only [survives_append_singleton_iff, Apart]
  apply Iff.intro
  · rintro ⟨a, rfl | ⟨ha, hab, hba⟩, rfl, hvalue⟩
    · exact .inl ⟨rfl, hvalue⟩
    · exact .inr ⟨hba, hab, a, ha, rfl, hvalue⟩
  · rintro (⟨hpath, hvalue⟩ | ⟨hb, hquery, a, ha, rfl, hvalue⟩)
    · exact ⟨b, .inl rfl, hpath, hvalue⟩
    · exact ⟨a, .inr ⟨ha, hquery, hb⟩, rfl, hvalue⟩

theorem exists_survives_beyond_iff (assignments : List Assignment) (b : Assignment)
    (query : List String) :
    (∃ a, Survives (assignments ++ [b]) a ∧ query <+: a.path ∧ query ≠ a.path) ↔
      (query <+: b.path ∧ query ≠ b.path) ∨
      (¬ b.path <+: query ∧ ¬ query <+: b.path ∧
        ∃ a, Survives assignments a ∧ query <+: a.path ∧ query ≠ a.path) := by
  simp only [survives_append_singleton_iff, Apart]
  apply Iff.intro
  · rintro ⟨a, rfl | ⟨ha, hab, hba⟩, hquery, hne⟩
    · exact .inl ⟨hquery, hne⟩
    · by_cases hb : query <+: b.path
      · exact .inl ⟨hb, fun heq => hba (heq ▸ hquery)⟩
      · exact .inr ⟨fun h => hba (h.trans hquery), hb, a, ha, hquery, hne⟩
  · rintro (⟨hquery, hne⟩ | ⟨hb, hquery, a, ha, hpath, hne⟩)
    · exact ⟨b, .inl rfl, hquery, hne⟩
    · refine ⟨a, .inr ⟨ha, fun h => hquery (hpath.trans h), fun h => ?_⟩, hpath, hne⟩
      have hcompare := List.prefix_or_prefix_of_prefix h hpath
      exact hcompare.elim hb hquery

/-- What a list of assignments has made of a path where nothing stood before. -/
structure RunAt (after : Generator) (assignments : List Assignment) (query : List String) :
    Prop where
  value (g : Generator) (hg : ¬ g.IsObject) : after.at? query = some g ↔
    ∃ a, Survives assignments a ∧ a.path = query ∧ a.value = g
  object : (∃ fields, after.at? query = some (.object fields)) ↔
    ∃ a, Survives assignments a ∧ query <+: a.path ∧ query ≠ a.path

theorem runAt_run {assignments : List Assignment}
    (hvalues : ∀ a ∈ assignments, ¬ a.value.IsObject) {before : Generator} {query : List String}
    (hbefore : before.at? query = none) : RunAt (run before assignments) assignments query := by
  -- the last assignment decides about all that it touches, and the others about the rest
  induction assignments using List.reverseRecOn with
  | nil => constructor <;> simp [run, hbefore, Survives]
  | append_singleton assignments b ih =>
    have hold := ih fun a ha => hvalues a (by simp [ha])
    have hb := hvalues b (by simp)
    have hnew := Generator.assignedAt_merge_chain hb (run before assignments) b.path query
    rw [run_append_singleton]
    constructor
    · intro g hg
      rw [exists_survives_value_iff]
      by_cases hhere : b.path = query
      · rw [hnew.here hhere]
        simp [hhere]
      · by_cases hbelow : b.path <+: query
        · rw [hnew.below hbelow hhere]
          simp [hhere, hbelow]
        · by_cases habove : query <+: b.path
          · obtain ⟨fields, hfields⟩ := hnew.above habove hhere
            have hne : Generator.object fields ≠ g := fun h => hg ⟨fields, h.symm⟩
            simp [hfields, hhere, habove, hne]
          · rw [hnew.aside hbelow habove, hold.value g hg]
            simp [hhere, hbelow, habove]
    · rw [exists_survives_beyond_iff]
      by_cases hhere : b.path = query
      · have hne : ∀ fields, b.value ≠ .object fields := fun fields h => hb ⟨fields, h⟩
        rw [hnew.here hhere]
        simp [hhere, hne]
      · by_cases hbelow : b.path <+: query
        · have habove : ¬ query <+: b.path := fun h => hhere (hbelow.eq_of_length_le h.length_le)
          simp [hnew.below hbelow hhere, hbelow, habove]
        · by_cases habove : query <+: b.path
          · simp [hnew.above habove hhere, habove, Ne.symm hhere]
          · rw [hnew.aside hbelow habove, hold.object]
            simp [hbelow, habove]

theorem RunAt.eq_none_iff {after : Generator} {assignments : List Assignment}
    {query : List String} (h : RunAt after assignments query)
    (hvalues : ∀ a ∈ assignments, ¬ a.value.IsObject) :
    after.at? query = none ↔ ¬ ∃ a, Survives assignments a ∧ query <+: a.path := by
  apply Iff.intro
  · intro hnone ⟨a, ha, hquery⟩
    by_cases hpath : query = a.path
    · have hmem : a ∈ assignments := by
        obtain ⟨before, later, rfl, -⟩ := ha
        simp
      have hsome := (h.value a.value (hvalues a hmem)).2 ⟨a, ha, hpath.symm, rfl⟩
      simp [hnone] at hsome
    · obtain ⟨fields, hsome⟩ := h.object.2 ⟨a, ha, hquery, hpath⟩
      simp [hnone] at hsome
  · intro hpaths
    cases hsome : after.at? query with
    | none => rfl
    | some g =>
      by_cases hg : g.IsObject
      · obtain ⟨fields, rfl⟩ := hg
        obtain ⟨a, ha, hquery, -⟩ := h.object.1 ⟨fields, hsome⟩
        exact absurd ⟨a, ha, hquery⟩ hpaths
      · obtain ⟨a, ha, hpath, -⟩ := (h.value g hg).1 hsome
        exact absurd ⟨a, ha, hpath ▸ List.prefix_refl _⟩ hpaths

end Assignment

namespace Grammar

def Tail.names : Tail → List String
  | .assign _ => []
  | .path name tail => name :: tail.names

def Tail.value : Tail → Term
  | .assign value => value
  | .path _ tail => tail.value

/-- The fields of a text as assignments of values to paths. -/
def Members.assignments : Members → List Assignment
  | .nil => []
  | .cons name tail rest => ⟨name :: tail.names, tail.value.denote⟩ :: rest.assignments

theorem Tail.denote_eq_chain : ∀ tail : Tail, tail.denote = .chain tail.names tail.value.denote
  | .assign _ => rfl
  | .path name tail => congrArg (Generator.single name) tail.denote_eq_chain

theorem Members.run_assignments : ∀ (members : Members) (root : Fields Generator none),
    Assignment.run (.object root) members.assignments = .object (root.addList members.entries)
  | .nil, _ => rfl
  | .cons name tail rest, root => by
    have hfirst : (Generator.object root).merge (.chain (name :: tail.names) tail.value.denote) =
        .object (root.add name tail.denote) := by
      rw [tail.denote_eq_chain]
      exact Generator.merge_single _ _ _
    calc
      _ = Assignment.run ((Generator.object root).merge
          (.chain (name :: tail.names) tail.value.denote)) rest.assignments := rfl
      _ = Assignment.run (.object (root.add name tail.denote)) rest.assignments := by rw [hfirst]
      _ = _ := rest.run_assignments _

/-- A text of fields without braced values is one object, and what stands in it at a path is told by
those assignments that no later one cuts, extends or repeats. -/
theorem readForest_last_writer_wins {input : String} {members : Members} {forest : Forest}
    (hlex : (lex input).symbols? = some members.symbols)
    (hvalues : ∀ a ∈ members.assignments, ¬ a.value.IsObject)
    (hread : readForest input = .ok forest) :
    ∃ root, forest = [.object root] ∧ ∀ query ≠ [],
      (∀ g, ¬ g.IsObject → ((Generator.object root).at? query = some g ↔
        ∃ a, Assignment.Survives members.assignments a ∧ a.path = query ∧ a.value = g)) ∧
      ((∃ fields, (Generator.object root).at? query = some (.object fields)) ↔
        ∃ a, Assignment.Survives members.assignments a ∧ query <+: a.path ∧ query ≠ a.path) ∧
      ((Generator.object root).at? query = none ↔
        ¬ ∃ a, Assignment.Survives members.assignments a ∧ query <+: a.path) := by
  have hforest := denote_eq_of_readForest (.fields members) hlex hread
  refine ⟨_, hforest.symm, fun query hquery => ?_⟩
  have hempty : (Generator.object .nil).at? query = none := by
    cases query with
    | nil => contradiction
    | cons name path => rfl
  have hrun := Assignment.runAt_run hvalues hempty
  rw [Members.run_assignments] at hrun
  exact ⟨hrun.value, hrun.object, hrun.eq_none_iff hvalues⟩

def overlapping : Members :=
  .cons "a" (.path "b" (.assign (.raw "1"))) (.cons "a" (.path "c" (.assign (.var "x")))
    (.cons "a" (.path "b" (.path "d" (.assign (.literal "y")))) .nil))

theorem readForest_last_writer_wins_overlapping :
    ∃ root, readForest "a.b=:1 a.c=$x a.b.d=y" = .ok [.object root] ∧
      (Generator.object root).at? ["a", "c"] = some (.var "x") ∧
      (∃ fields, (Generator.object root).at? ["a", "b"] = some (.object fields)) := by
  have hlex : (lex "a.b=:1 a.c=$x a.b.d=y").symbols? = some overlapping.symbols := by cbv
  have hvalues : ∀ a ∈ overlapping.assignments, ¬ a.value.IsObject := by
    simp [overlapping, Members.assignments, Tail.value, Term.denote, Generator.IsObject]
  have hraws : RawAccepted overlapping.symbols := by
    intro text htext
    obtain rfl : text = "1" := by
      simpa [overlapping, Members.symbols, Tail.symbols, Term.symbols] using htext
    decide +kernel
  have hderives : Derives nestingLimit overlapping.symbols (.fields overlapping) :=
    ⟨rfl, hraws, by decide⟩
  have hread := (readForest_eq_ok_iff _ _).2 ⟨_, _, hlex, hderives, rfl⟩
  obtain ⟨root, hroot, hpaths⟩ := readForest_last_writer_wins hlex hvalues hread
  have hvar : Assignment.Survives overlapping.assignments ⟨["a", "c"], .var "x"⟩ :=
    ⟨_, _, (List.append_cons [_] _ [_]).symm, by simp [Assignment.Apart, Tail.names]⟩
  have hlast : Assignment.Survives overlapping.assignments
      ⟨["a", "b", "d"], .value (.string "y")⟩ :=
    ⟨overlapping.assignments.take 2, [], rfl, by simp⟩
  refine ⟨root, hroot ▸ hread, ?_, ?_⟩
  · have hvalue := (hpaths ["a", "c"] (by simp)).1 (.var "x") (by simp [Generator.IsObject])
    exact hvalue.2 ⟨_, hvar, rfl, rfl⟩
  · have hobject := (hpaths ["a", "b"] (by simp)).2.1
    exact hobject.2 ⟨_, hlast, by decide, by simp⟩

end Grammar

end JsonShorthand
