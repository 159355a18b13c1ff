namespace JsonShorthand.Quoted

/-- The text between the quotes of a literal, where a backslash escapes a quote and nothing else. -/
def escape : List Char → List Char
  | [] => []
  | '"' :: cs => '\\' :: '"' :: escape cs
  | c :: cs => c :: escape cs

def unescape : List Char → List Char
  | [] => []
  | '\\' :: '"' :: cs => '"' :: unescape cs
  | c :: cs => c :: unescape cs

/-- Splits what follows an opening quote at the closing one, the first quote that no backslash
escapes; `none` if the literal is never closed. -/
def split? : List Char → Option (List Char × List Char)
  | [] => none
  | '"' :: rest => some ([], rest)
  | '\\' :: '"' :: cs => (split? cs).map fun (body, rest) => ('\\' :: '"' :: body, rest)
  | c :: cs => (split? cs).map fun (body, rest) => (c :: body, rest)

theorem escape_ne_quote_cons (cs rest : List Char) : escape cs ≠ '"' :: rest := by
  fun_cases escape cs <;> simp_all

theorem unescape_escape (cs : List Char) : unescape (escape cs) = cs := by
  fun_induction escape cs with
  | case1 => rfl
  | case2 cs ih => simp [unescape, ih]
  | case3 c cs _ ih =>
    rw [unescape, ih]
    intro rest _ hrest
    exact escape_ne_quote_cons cs rest hrest

theorem eq_append_of_split? {cs body rest : List Char} (h : split? cs = some (body, rest)) :
    cs = body ++ '"' :: rest := by
  fun_induction split? cs generalizing body rest with
  | case1 => simp at h
  | case2 => grind
  | case3 cs ih =>
    obtain ⟨p, hp, he⟩ := Option.map_eq_some_iff.1 h
    grind
  | case4 c cs _ _ ih =>
    obtain ⟨p, hp, he⟩ := Option.map_eq_some_iff.1 h
    grind

end JsonShorthand.Quoted
