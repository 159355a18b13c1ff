import JsonShorthand.Proofs.JsonLayout
import JsonShorthand.Proofs.JsonTokens

namespace JsonShorthand

namespace Json

/-- The machine takes a text from one state to another. -/
def Reads (text : List Char) (state next : State) : Prop :=
  ∃ tokens, Lexes text tokens ∧ tokens.foldlM State.step state = some next

namespace Reads

variable {text more : List Char} {state next last : State} {token : Token} {c : Char}

theorem append (htext : Reads text state next) (hmore : Reads more next last)
    (hhead : ∀ d, more.head? = some d → ¬ isScalarChar d) : Reads (text ++ more) state last := by
  obtain ⟨tokens, hlex, hrun⟩ := htext
  obtain ⟨others, hlex', hrun'⟩ := hmore
  refine ⟨tokens ++ others, hlex.append hlex' hhead, ?_⟩
  rw [List.foldlM_append, hrun]
  exact hrun'

theorem of_step (hlex : Lexes text [token]) (hstep : state.step token = some next) :
    Reads text state next :=
  ⟨[token], hlex, by simp [hstep]⟩

theorem mark_cons (hmark : IsMark c token) (hstep : state.step token = some next)
    (htext : Reads text next last) : Reads (c :: text) state last := by
  obtain ⟨tokens, hlex, hrun⟩ := htext
  refine ⟨token :: tokens, hlex.mark_cons hmark, ?_⟩
  rw [List.foldlM_cons, hstep]
  exact hrun

theorem append_mark_cons (htext : Reads text state next) (hmore : Reads (c :: more) next last)
    (hmark : IsMark c token) : Reads (text ++ c :: more) state last := by
  apply htext.append hmore
  intro d hd
  obtain rfl : c = d := Option.some.inj hd
  exact hmark.not_isScalarChar

/-- Items with commas between them, up to the mark that closes them. What is read of the items is
gathered from one to the next. -/
theorem items {ι Acc : Type} {text : ι → List Char} (before closed : Acc → State)
    (after : Acc → ι → State) (gather : Acc → ι → Acc) (hmark : IsMark c token)
    (hcomma : ∀ acc i, (after acc i).step .comma = some (before (gather acc i)))
    (hclose : ∀ acc i, (after acc i).step token = some (closed (gather acc i))) {items : List ι}
    (hitems : ∀ i ∈ items, ∀ acc, Reads (text i) (before acc) (after acc i)) (hne : items ≠ [])
    (acc : Acc) :
    Reads ([','].intercalate (items.map text) ++ [c]) (before acc)
      (closed (items.foldl gather acc)) := by
  induction items generalizing acc with
  | nil => contradiction
  | cons i items ih =>
    obtain ⟨hi, hitems⟩ := List.forall_mem_cons.1 hitems
    cases items with
    | nil =>
      have hend : Reads [c] (after acc i) (closed (gather acc i)) :=
        of_step (.mark hmark) (hclose acc i)
      simpa using (hi acc).append_mark_cons hend hmark
    | cons second items =>
      have hrest := mark_cons isMark_comma (hcomma acc i) (ih hitems (by simp) (gather acc i))
      have hall := (hi acc).append_mark_cons hrest isMark_comma
      rw [List.map_cons, List.map_cons, List.intercalate_cons_cons, List.append_assoc,
        List.append_assoc]
      exact hall

end Reads

/-- A text stands for a value wherever one is due. -/
def Denotes (text : List Char) (v : Value) : Prop :=
  ∀ frames, Reads text (.value frames) (.done v frames)

theorem denotes_scalar {v : Value} (h : v.IsScalar) : Denotes v.scalar v.inJson := by
  intro frames
  have hraw {w : Value} (hw : w.IsRaw) : Reads w.scalar (.value frames) (.done w frames) :=
    .of_step (.scalar hw) rfl
  cases v with
  | string s => exact .of_step (.string s) rfl
  | float x =>
    rw [Value.inJson]
    by_cases hfinite : x.isFinite
    · rw [if_pos hfinite]
      exact hraw (w := .float x) hfinite
    · rw [if_neg hfinite, Value.scalar, float, if_neg hfinite]
      exact hraw (w := .null) trivial
  | null => exact hraw (w := .null) trivial
  | boolean b => exact hraw (w := .boolean b) trivial
  | integer n => exact hraw (w := .integer n) trivial
  | array elements | object fields => exact h.elim

theorem denotes_array {elements : List Value}
    (h : ∀ v ∈ elements, Denotes v.compact v.inJson) :
    Denotes (Value.array elements).compact (Value.array elements).inJson := by
  intro frames
  rw [Value.compact, Value.compactElements_eq_map, Value.inJson_array, List.cons_append]
  apply Reads.mark_cons isMark_openBracket rfl
  by_cases hne : elements = []
  · subst hne
    exact .of_step (.mark isMark_closeBracket) rfl
  · -- the machine keeps the latest element first
    have hread := Reads.items (fun earlier => .value (.element earlier :: frames))
      (fun earlier => .done (.array earlier.reverse) frames)
      (fun earlier v => .done v.inJson (.element earlier :: frames))
      (fun earlier v => v.inJson :: earlier) isMark_closeBracket (fun _ _ => rfl)
      (fun _ _ => rfl) (fun v hv earlier => h v hv _) hne []
    simpa [List.foldl_flip_cons_eq_append] using hread

theorem reads_field {name : String} {v : Value} (h : Denotes v.compact v.inJson)
    (fields : Fields Value none) (frames : List Frame) :
    Reads (string name ++ ':' :: v.compact) (.name fields frames)
      (.done v.inJson (.member fields name :: frames)) :=
  (Reads.of_step (.string name) rfl).append_mark_cons (.mark_cons isMark_colon rfl (h _))
    isMark_colon

theorem denotes_object {fields : Fields Value none}
    (h : ∀ name v, fields.get? name = some v → Denotes v.compact v.inJson) :
    Denotes (Value.object fields).compact (Value.object fields).inJson := by
  intro frames
  have hfields : fields.map Value.inJson =
      fields.toList.foldl (fun fields entry => fields.insert entry.1 entry.2.inJson) .nil := by
    have hentries := List.Perm.refl (fields.map Value.inJson).toList
    rw [← Fields.ofList_of_perm hentries, Fields.toList_map, Fields.ofList, List.foldl_map]
  rw [Value.compact, Value.compactFields_eq_map, Value.inJson_object, List.cons_append, hfields]
  apply Reads.mark_cons isMark_openBrace rfl
  by_cases hne : fields.toList = []
  · rw [hne]
    exact .of_step (.mark isMark_closeBrace) rfl
  · exact Reads.items (fun fields => .name fields frames)
      (fun fields => .done (.object fields) frames)
      (fun fields entry => .done entry.2.inJson (.member fields entry.1 :: frames))
      (fun fields entry => fields.insert entry.1 entry.2.inJson) isMark_closeBrace
      (fun _ _ => rfl) (fun _ _ => rfl)
      (fun entry hentry present =>
        reads_field (h entry.1 entry.2 (fields.mem_toList_iff.1 hentry)) present frames)
      hne .nil

theorem denotes_compact (v : Value) : Denotes v.compact v.inJson := by
  induction v using Value.induction with
  | scalar v h =>
    rw [Value.compact_of_isScalar h]
    exact denotes_scalar h
  | array elements ih => exact denotes_array ih
  | object fields ih => exact denotes_object ih

end Json

theorem readJson_eq_inJson (v : Value) : readJson v.toJson = some v.inJson := by
  obtain ⟨tokens, hlex, hrun⟩ := Json.denotes_compact v []
  rw [readJson, Value.toJson, String.toList_ofList, hlex.tokens?_eq, Option.bind_eq_bind,
    Option.bind_some, hrun]
  rfl

namespace Value

theorem toJson_eq_iff {v w : Value} : v.toJson = w.toJson ↔ v.inJson = w.inJson := by
  apply Iff.intro
  · intro h
    have hread := readJson_eq_inJson v
    rw [h, readJson_eq_inJson] at hread
    exact (Option.some.inj hread).symm
  · intro h
    rw [← toJson_inJson v, h, toJson_inJson]

theorem inJson_float_ne_integer (x : Binary64) (n : Int64) : (float x).inJson ≠ integer n := by
  rw [inJson]
  split <;> simp

theorem inJson_float_eq_iff {x y : Binary64} :
    (float x).inJson = (float y).inJson ↔ x = y ∨ (¬ x.isFinite ∧ ¬ y.isFinite) := by
  rw [inJson, inJson]
  by_cases hx : x.isFinite <;> by_cases hy : y.isFinite <;> grind

theorem inJson_object_eq_iff {fields others : Fields Value none} :
    (object fields).inJson = (object others).inJson ↔
      ∀ name, (fields.get? name).map inJson = (others.get? name).map inJson := by
  rw [inJson_object, inJson_object]
  apply Iff.intro
  · intro h name
    rw [← Fields.get?_map, ← Fields.get?_map, object.inj h]
  · intro h
    congr 1
    apply Fields.ext
    intro name
    rw [Fields.get?_map, Fields.get?_map, h]

end Value

open Value

/-- The JSON text of a value is read as the value, with null for what is no finite number. So two
values have the same text just if they are the same then: no integer has the text of a
floating-point number, two finite numbers have the same text only if they agree in every bit, and
two objects only if they have the same fields. -/
theorem readJson_toJson :
    (∀ v : Value, readJson v.toJson = some v.inJson) ∧
    (∀ v w : Value, v.toJson = w.toJson ↔ v.inJson = w.inJson) ∧
    (∀ n x, (integer n).toJson ≠ (float x).toJson) ∧
    (∀ x y, (float x).toJson = (float y).toJson ↔ x = y ∨ (¬ x.isFinite ∧ ¬ y.isFinite)) ∧
    (∀ fields others, (object fields).toJson = (object others).toJson ↔
      ∀ name, (fields.get? name).map inJson = (others.get? name).map inJson) := by
  refine ⟨readJson_eq_inJson, fun v w => toJson_eq_iff, ?_, ?_, ?_⟩
  · intro n x h
    exact inJson_float_ne_integer x n (toJson_eq_iff.1 h).symm
  · intro x y
    rw [toJson_eq_iff, inJson_float_eq_iff]
  · intro fields others
    rw [toJson_eq_iff, inJson_object_eq_iff]

end JsonShorthand
