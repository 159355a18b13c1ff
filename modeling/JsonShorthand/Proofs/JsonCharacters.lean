import JsonShorthand.Proofs.JsonLayout
import JsonShorthand.Proofs.Numerals

namespace JsonShorthand

theorem mem_of_mem_intercalate {α : Type} {separator : List α} {items : List (List α)} {a : α}
    (h : a ∈ separator.intercalate items) : a ∈ separator ∨ ∃ item ∈ items, a ∈ item := by
  induction items with
  | nil => simp at h
  | cons first rest ih =>
    cases rest with
    | nil => exact .inr ⟨first, by simp, by simpa using h⟩
    | cons second rest =>
      rw [List.intercalate_cons_cons, List.append_assoc] at h
      rcases List.mem_append.1 h with h | h
      · exact .inr ⟨first, List.mem_cons_self, h⟩
      · rcases List.mem_append.1 h with h | h
        · exact .inl h
        · rcases ih h with h | ⟨item, hitem, h⟩
          · exact .inl h
          · exact .inr ⟨item, List.mem_cons_of_mem _ hitem, h⟩

/-- The characters that no JSON string may hold as they are, line ends among them. -/
def IsControl (c : Char) : Prop := c.toNat < 0x20

instance (c : Char) : Decidable (IsControl c) := inferInstanceAs (Decidable (c.toNat < 0x20))

theorem not_isControl_of_mem {cs : List Char} (h : cs.all fun c => ¬ IsControl c) :
    ∀ c ∈ cs, ¬ IsControl c := by
  simpa using h

theorem not_isControl_of_isDigit {c : Char} (h : c.isDigit) : ¬ IsControl c := by
  have hrange : '0'.toNat ≤ c.toNat := (Char.isDigit_iff_toNat.1 h).1
  exact Nat.not_lt.2 (Nat.le_trans (by decide) hrange)

theorem not_isControl_of_isNumeralMark {c : Char} (h : isNumeralMark c) : ¬ IsControl c := by
  simp only [isNumeralMark, Bool.or_eq_true, decide_eq_true_eq] at h
  rcases h with ((rfl | rfl) | rfl) | rfl <;> decide

namespace Json

theorem not_isControl_digitChar {n : Nat} (h : n < 16) : ¬ IsControl (Nat.digitChar n) := by
  revert n
  decide

theorem not_isControl_of_mem_escape {c d : Char} (h : d ∈ escape c) : ¬ IsControl d := by
  unfold escape at h
  split at h
  case h_8 =>
    split at h
    case isTrue hcontrol =>
      have hhigh : ¬ IsControl (Nat.digitChar (c.toNat / 16)) := not_isControl_digitChar (by omega)
      have hlow : ¬ IsControl (Nat.digitChar (c.toNat % 16)) := not_isControl_digitChar (by omega)
      simp only [List.mem_cons, List.not_mem_nil, or_false] at h
      rcases h with rfl | rfl | rfl | rfl | rfl | rfl
      case inr.inr.inr.inr.inl => exact hhigh
      case inr.inr.inr.inr.inr => exact hlow
      all_goals decide
    case isFalse hcontrol =>
      obtain rfl := List.mem_singleton.1 h
      exact hcontrol
  all_goals exact not_isControl_of_mem (by decide) d h

theorem not_isControl_of_mem_string {text : String} {c : Char} (h : c ∈ string text) :
    ¬ IsControl c := by
  rcases List.mem_cons.1 h with rfl | h
  · decide
  · rcases List.mem_append.1 h with h | h
    · obtain ⟨d, -, hc⟩ := List.mem_flatMap.1 h
      exact not_isControl_of_mem_escape hc
    · obtain rfl := List.mem_singleton.1 h
      decide

theorem not_isControl_of_mem_float {x : Binary64} {c : Char} (h : c ∈ float x) : ¬ IsControl c := by
  by_cases hfinite : x.isFinite
  · rcases mem_float hfinite h with h | h
    · exact not_isControl_of_isDigit h
    · exact not_isControl_of_isNumeralMark h
  · rw [float, if_neg hfinite] at h
    exact not_isControl_of_mem (by decide) c h

end Json

namespace Value

theorem not_isControl_of_mem_scalar {v : Value} {c : Char} (h : c ∈ v.scalar) : ¬ IsControl c := by
  cases v with
  | null => exact not_isControl_of_mem (by decide) c h
  | boolean b => cases b <;> exact not_isControl_of_mem (by decide) c h
  | float x => exact Json.not_isControl_of_mem_float h
  | integer n =>
    rcases Json.mem_integer h with h | h
    · exact not_isControl_of_isDigit h
    · exact not_isControl_of_isNumeralMark h
  | string s => exact Json.not_isControl_of_mem_string h
  | array elements | object fields => simp [scalar] at h

theorem not_isControl_of_mem_items {opening closing : Char} {items : List (List Char)} {c : Char}
    (hopening : ¬ IsControl opening) (hclosing : ¬ IsControl closing)
    (hitems : ∀ item ∈ items, ∀ c ∈ item, ¬ IsControl c)
    (h : c ∈ opening :: [','].intercalate items ++ [closing]) : ¬ IsControl c := by
  rcases List.mem_append.1 h with h | h
  · rcases List.mem_cons.1 h with rfl | h
    · exact hopening
    · rcases mem_of_mem_intercalate h with h | ⟨item, hitem, h⟩
      · exact not_isControl_of_mem (by decide) c h
      · exact hitems item hitem c h
  · obtain rfl := List.mem_singleton.1 h
    exact hclosing

/-- Whatever strings and names a value has, its text on one line is free of control characters. -/
theorem not_isControl_of_mem_compact (v : Value) : ∀ c ∈ v.compact, ¬ IsControl c := by
  induction v using Value.induction with
  | scalar v h =>
    intro c hc
    rw [compact_of_isScalar h] at hc
    exact not_isControl_of_mem_scalar hc
  | array elements ih =>
    intro c hc
    apply not_isControl_of_mem_items (by decide) (by decide) _ hc
    rw [compactElements_eq_map]
    intro item hitem
    obtain ⟨v, hv, rfl⟩ := List.mem_map.1 hitem
    exact ih v hv
  | object fields ih =>
    intro c hc
    apply not_isControl_of_mem_items (by decide) (by decide) _ hc
    rw [compactFields_eq_map]
    intro item hitem d hd
    obtain ⟨⟨name, v⟩, hentry, rfl⟩ := List.mem_map.1 hitem
    rcases List.mem_append.1 hd with hd | hd
    · exact Json.not_isControl_of_mem_string hd
    · rcases List.mem_cons.1 hd with rfl | hd
      · decide
      · exact ih name v (fields.mem_toList_iff.1 hentry) d hd

theorem not_isControl_of_mem_toJson {v : Value} {c : Char} (h : c ∈ v.toJson.toList) :
    ¬ IsControl c := by
  rw [toJson, String.toList_ofList] at h
  exact v.not_isControl_of_mem_compact c h

end Value

end JsonShorthand
