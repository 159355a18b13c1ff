import Mathlib
import JsonShorthand.Proofs.JsonPlaces

namespace JsonShorthand

namespace Json

def IsBracket (c : Char) : Prop := c = '[' ∨ c = '{' ∨ c = ']' ∨ c = '}'

/-- What a bracket outside of strings adds to the number of those that are open. -/
def bracketWeight : Place × Char → Int
  | (.outside, '[') | (.outside, '{') => 1
  | (.outside, ']') | (.outside, '}') => -1
  | _ => 0

def openBrackets (cs : List Char) : Int := ((placed .outside cs).map bracketWeight).sum

/-- Whether a bracket is closed at the start of a line, as a number. -/
def closesFirst : List Char → Int
  | ']' :: _ | '}' :: _ => 1
  | _ => 0

theorem openBrackets_append {cs : List Char} (h : Place.outside.after cs = .outside)
    (ds : List Char) : openBrackets (cs ++ ds) = openBrackets cs + openBrackets ds := by
  rw [openBrackets, placed_append, h, List.map_append, List.sum_append]
  rfl

theorem Free.openBrackets_eq_zero {cs : List Char} (h : Free IsBracket cs) :
    openBrackets cs = 0 := by
  apply List.sum_eq_zero
  intro weight hweight
  obtain ⟨⟨place, c⟩, hc, rfl⟩ := List.mem_map.1 hweight
  unfold bracketWeight
  split
  case h_5 => rfl
  all_goals
    next heq =>
    obtain ⟨rfl, rfl⟩ := Prod.mk.inj heq
    exact absurd (by simp [IsBracket]) (h.not_of_mem _ hc)

theorem Free.closesFirst_append {cs ds : List Char} (h : Free IsBracket cs)
    (hds : closesFirst ds = 0) : closesFirst (cs ++ ds) = 0 := by
  cases cs with
  | nil => exact hds
  | cons c cs =>
    have hc : ¬ IsBracket c := h.not_of_mem c List.mem_cons_self
    unfold closesFirst
    split
    · next heq =>
      obtain ⟨rfl, -⟩ := List.cons.inj heq
      exact absurd (by simp [IsBracket]) hc
    · next heq =>
      obtain ⟨rfl, -⟩ := List.cons.inj heq
      exact absurd (by simp [IsBracket]) hc
    · rfl

structure Line where
  depth : Nat
  content : List Char
  deriving DecidableEq

def Line.chars (line : Line) : List Char := List.replicate line.depth '\t' ++ line.content

def joinLines (lines : List Line) : List Char := ['\n'].intercalate (lines.map Line.chars)

/-- The lines of items, each given what stands behind it: a comma, unless it is the last. -/
def separated : List (List Char → List Line) → List Line
  | [] => []
  | [item] => item []
  | item :: rest => item [','] ++ separated rest

theorem separated_cons_cons (item second : List Char → List Line)
    (rest : List (List Char → List Line)) :
    separated (item :: second :: rest) = item [','] ++ separated (second :: rest) := rfl

/-- The lines `inner` of items between two brackets on lines of their own; without items the
brackets share one line. -/
def framed (depth : Nat) (before after : List Char) (openBracket closeBracket : Char)
    (inner : List Line) : List Line :=
  if inner = [] then [⟨depth, before ++ [openBracket, closeBracket] ++ after⟩]
  else ⟨depth, before ++ [openBracket]⟩ :: inner ++ [⟨depth, [closeBracket] ++ after⟩]

theorem joinLines_append {lines others : List Line} (hlines : lines ≠ []) (hothers : others ≠ []) :
    joinLines (lines ++ others) = joinLines lines ++ '\n' :: joinLines others := by
  induction lines with
  | nil => contradiction
  | cons line lines ih =>
    cases lines with
    | nil =>
      obtain ⟨other, others, rfl⟩ := List.exists_cons_of_ne_nil hothers
      simp [joinLines, List.intercalate_cons_cons]
    | cons second lines =>
      have hrest := ih (List.cons_ne_nil _ _)
      simp only [joinLines, List.map_cons, List.cons_append, List.intercalate_cons_cons] at hrest ⊢
      rw [hrest]
      simp

/-- The lines of an item are those of a text that begins inside `depth` containers. -/
def LaysOut (depth : Nat) (text : List Char) (item : List Char → List Line) : Prop :=
  ∀ after, item after ≠ [] ∧
    joinLines (item after) = List.replicate depth '\t' ++ text ++ after

theorem joinLines_separated {depth : Nat} {texts : List (List Char)}
    {items : List (List Char → List Line)} (h : List.Forall₂ (LaysOut depth) texts items)
    (hne : texts ≠ []) :
    separated items ≠ [] ∧ joinLines (separated items) =
      List.replicate depth '\t' ++ (',' :: Value.newline depth).intercalate texts := by
  induction h with
  | nil => contradiction
  | @cons text item texts items hitem hitems ih =>
    cases hitems with
    | nil =>
      obtain ⟨hlines, hjoin⟩ := hitem []
      exact ⟨hlines, by simpa [separated] using hjoin⟩
    | cons hsecond hitems =>
      obtain ⟨hrest, hjoinRest⟩ := ih (List.cons_ne_nil _ _)
      obtain ⟨hlines, hjoin⟩ := hitem [',']
      rw [separated_cons_cons, joinLines_append hlines hrest, hjoin, hjoinRest,
        List.intercalate_cons_cons]
      exact ⟨by simp [hlines], by simp [Value.newline]⟩

theorem laysOut_framed {depth : Nat} {before : List Char} {openBracket closeBracket : Char}
    {texts : List (List Char)} {items : List (List Char → List Line)}
    (h : List.Forall₂ (LaysOut (depth + 1)) texts items) :
    LaysOut depth (before ++ Value.block depth openBracket closeBracket texts) fun after =>
      framed depth before after openBracket closeBracket (separated items) := by
  intro after
  beta_reduce
  by_cases htexts : texts = []
  · subst htexts
    obtain rfl := List.forall₂_nil_left_iff.1 h
    simp [Value.block, framed, separated, joinLines, Line.chars]
  · obtain ⟨hinner, hjoin⟩ := joinLines_separated h htexts
    have hlines : framed depth before after openBracket closeBracket (separated items) =
        [⟨depth, before ++ [openBracket]⟩] ++
          (separated items ++ [⟨depth, [closeBracket] ++ after⟩]) := if_neg hinner
    rw [hlines]
    refine ⟨by simp, ?_⟩
    rw [joinLines_append (by simp) (by simp), joinLines_append hinner (by simp), hjoin,
      Value.block, if_neg htexts]
    simp [joinLines, Line.chars, Value.newline]

/-- Characters that stand on one line and neither open nor close an array or an object. -/
structure Inert (cs : List Char) : Prop where
  free : Free IsBracket cs
  not_isControl : ∀ c ∈ cs, ¬ IsControl c

namespace Inert

theorem append {cs ds : List Char} (hcs : Inert cs) (hds : Inert ds) : Inert (cs ++ ds) where
  free := hcs.free.append hds.free
  not_isControl c hc :=
    (List.mem_append.1 hc).elim (hcs.not_isControl c) (hds.not_isControl c)

theorem nil : Inert [] := ⟨.nil, fun _ => List.not_mem_nil.elim⟩

theorem comma : Inert [','] := ⟨.singleton (by decide) (by simp [IsBracket]), by simp [IsControl]⟩

theorem name (text : String) : Inert (string text ++ [':', ' ']) := by
  have hname : Inert (string text) :=
    ⟨.string (by simp [IsBracket]) text, fun c hc => not_isControl_of_mem_string hc⟩
  exact hname.append ⟨.of_forall (by simp [IsBracket]), by simp [IsControl]⟩

theorem scalar {v : Value} (h : v.IsScalar) : Inert v.scalar := by
  refine ⟨.scalar (by simp [IsBracket]) ?_ h, fun c hc => Value.not_isControl_of_mem_scalar hc⟩
  rintro c hc (rfl | rfl | rfl | rfl) <;> simp [isScalarChar] at hc

end Inert

/-- A line that stands inside `depth` containers, if a bracket that it closes at its start counts as
closed. -/
structure Line.Indented (depth : Int) (line : Line) : Prop where
  depth_eq : line.depth + closesFirst line.content = depth
  after_eq : Place.outside.after line.content = .outside
  not_isControl : ∀ c ∈ line.content, ¬ IsControl c

/-- Lines of which each is indented by the containers that are open around it: `first` before them
and `last` after them. -/
def Indented : Int → List Line → Int → Prop
  | first, [], last => first = last
  | first, line :: rest, last =>
    line.Indented first ∧ Indented (first + openBrackets line.content) rest last

theorem Indented.singleton {first last : Int} {line : Line} (h : line.Indented first)
    (hlast : first + openBrackets line.content = last) : Indented first [line] last := ⟨h, hlast⟩

theorem Indented.append {first middle last : Int} {lines others : List Line}
    (hlines : Indented first lines middle) (hothers : Indented middle others last) :
    Indented first (lines ++ others) last := by
  induction lines generalizing first with
  | nil => exact hlines ▸ hothers
  | cons line lines ih => exact ⟨hlines.1, ih hlines.2⟩

theorem Indented.separated {depth : Int} {items : List (List Char → List Line)}
    (h : ∀ item ∈ items, ∀ after, Inert after → Indented depth (item after) depth) :
    Indented depth (separated items) depth := by
  induction items with
  | nil => rfl
  | cons item rest ih =>
    obtain ⟨hitem, hrest⟩ := List.forall_mem_cons.1 h
    cases rest with
    | nil => exact hitem [] .nil
    | cons second rest =>
      rw [separated_cons_cons]
      exact (hitem [','] .comma).append (ih hrest)

inductive IsPair : Char → Char → Prop where
  | array : IsPair '[' ']'
  | object : IsPair '{' '}'

section Frame

variable {depth : Nat} {before after : List Char} {openBracket closeBracket : Char}

theorem IsPair.indented_empty (h : IsPair openBracket closeBracket) (hbefore : Inert before)
    (hafter : Inert after) :
    Indented depth [⟨depth, before ++ [openBracket, closeBracket] ++ after⟩] depth := by
  have hpair : openBrackets [openBracket, closeBracket] = 0 ∧
      Place.outside.after [openBracket, closeBracket] = .outside ∧
      (∀ c ∈ [openBracket, closeBracket], ¬ IsControl c) ∧
      ∀ rest, closesFirst ([openBracket, closeBracket] ++ rest) = 0 := by
    cases h <;> exact ⟨rfl, rfl, by simp [IsControl], fun _ => rfl⟩
  obtain ⟨hweight, hplace, hcontrol, hfirst⟩ := hpair
  have houtside : Place.outside.after (before ++ [openBracket, closeBracket]) = .outside := by
    rw [Place.after_append, hbefore.free.after_eq, hplace]
  refine .singleton ⟨?_, ?_, ?_⟩ ?_
  · rw [List.append_assoc, hbefore.free.closesFirst_append (hfirst after), add_zero]
  · rw [Place.after_append, houtside, hafter.free.after_eq]
  · simp only [List.mem_append]
    rintro c ((hc | hc) | hc)
    exacts [hbefore.not_isControl c hc, hcontrol c hc, hafter.not_isControl c hc]
  · rw [openBrackets_append houtside, openBrackets_append hbefore.free.after_eq,
      hbefore.free.openBrackets_eq_zero, hweight, hafter.free.openBrackets_eq_zero]
    rfl

theorem IsPair.indented_open (h : IsPair openBracket closeBracket) (hbefore : Inert before) :
    Indented depth [⟨depth, before ++ [openBracket]⟩] (depth + 1) := by
  have hopen : openBrackets [openBracket] = 1 ∧ Place.outside.after [openBracket] = .outside ∧
      ¬ IsControl openBracket ∧ closesFirst [openBracket] = 0 := by
    cases h <;> exact ⟨rfl, rfl, by decide, rfl⟩
  obtain ⟨hweight, hplace, hcontrol, hfirst⟩ := hopen
  refine .singleton ⟨?_, ?_, ?_⟩ ?_
  · rw [hbefore.free.closesFirst_append hfirst, add_zero]
  · rw [Place.after_append, hbefore.free.after_eq, hplace]
  · simp only [List.mem_append, List.mem_singleton]
    rintro c (hc | rfl)
    exacts [hbefore.not_isControl c hc, hcontrol]
  · rw [openBrackets_append hbefore.free.after_eq, hbefore.free.openBrackets_eq_zero, hweight,
      zero_add]

theorem IsPair.indented_close (h : IsPair openBracket closeBracket) (hafter : Inert after) :
    Indented (depth + 1) [⟨depth, [closeBracket] ++ after⟩] depth := by
  have hclose : openBrackets [closeBracket] = -1 ∧ Place.outside.after [closeBracket] = .outside ∧
      ¬ IsControl closeBracket ∧ closesFirst ([closeBracket] ++ after) = 1 := by
    cases h <;> exact ⟨rfl, rfl, by decide, rfl⟩
  obtain ⟨hweight, hplace, hcontrol, hfirst⟩ := hclose
  refine .singleton ⟨?_, ?_, ?_⟩ ?_
  · rw [hfirst]
  · rw [Place.after_append, hplace, hafter.free.after_eq]
  · simp only [List.mem_append, List.mem_singleton]
    rintro c (rfl | hc)
    exacts [hcontrol, hafter.not_isControl c hc]
  · rw [openBrackets_append hplace, hweight, hafter.free.openBrackets_eq_zero]
    omega

theorem IsPair.indented_framed (h : IsPair openBracket closeBracket) (hbefore : Inert before)
    (hafter : Inert after) {inner : List Line}
    (hinner : Indented (depth + 1) inner (depth + 1)) :
    Indented depth (framed depth before after openBracket closeBracket inner) depth := by
  unfold framed
  split
  · exact h.indented_empty hbefore hafter
  · exact ((h.indented_open hbefore).append hinner).append (h.indented_close hafter)

end Frame

end Json

namespace Value

open Json

mutual

/-- The lines of a value inside `depth` containers, given what stands before it on its first line
and behind it on its last one. -/
def lines (depth : Nat) (before after : List Char) : Value → List Line
  | array elements =>
    framed depth before after '[' ']' (separated (elementLines (depth + 1) elements))
  | object fields =>
    framed depth before after '{' '}' (separated (fieldLines (depth + 1) fields))
  | v => [⟨depth, before ++ scalar v ++ after⟩]

def elementLines (depth : Nat) : List Value → List (List Char → List Line)
  | [] => []
  | v :: rest => (fun after => lines depth [] after v) :: elementLines depth rest

def fieldLines (depth : Nat) {bound : Option String} :
    Fields Value bound → List (List Char → List Line)
  | .nil => []
  | .cons name _ v rest =>
    (fun after => lines depth (Json.string name ++ [':', ' ']) after v) :: fieldLines depth rest

end

theorem elementLines_eq_map (depth : Nat) (elements : List Value) :
    elementLines depth elements = elements.map fun v after => v.lines depth [] after := by
  induction elements with
  | nil => rfl
  | cons v rest ih => simp [elementLines, ih]

theorem fieldLines_eq_map (depth : Nat) {bound : Option String} (fields : Fields Value bound) :
    fieldLines depth fields = fields.toList.map fun entry after =>
      entry.2.lines depth (Json.string entry.1 ++ [':', ' ']) after := by
  induction fields with
  | nil => rfl
  | cons name above v rest ih => simp [fieldLines, Fields.toList, ih]

theorem lines_of_isScalar {v : Value} (h : v.IsScalar) (depth : Nat) (before after : List Char) :
    v.lines depth before after = [⟨depth, before ++ v.scalar ++ after⟩] := by
  cases v with
  | array elements | object fields => exact h.elim
  | _ => rfl

theorem laysOut_lines (v : Value) (depth : Nat) (before : List Char) :
    LaysOut depth (before ++ v.prettyAt depth) (v.lines depth before) := by
  -- the name of a field stands before its value, so `before` is kept general
  induction v using Value.induction generalizing depth before with
  | scalar v h =>
    intro after
    beta_reduce
    rw [lines_of_isScalar h, prettyAt_of_isScalar h]
    simp [joinLines, Line.chars]
  | array elements ih =>
    have hitems : List.Forall₂ (LaysOut (depth + 1)) (prettyElements (depth + 1) elements)
        (elementLines (depth + 1) elements) := by
      rw [prettyElements_eq_map, elementLines_eq_map, List.forall₂_map_left_iff,
        List.forall₂_map_right_iff]
      exact List.forall₂_same.2 fun v hv => ih v hv (depth + 1) []
    exact laysOut_framed hitems
  | object fields ih =>
    have hitems : List.Forall₂ (LaysOut (depth + 1)) (prettyFields (depth + 1) fields)
        (fieldLines (depth + 1) fields) := by
      rw [prettyFields_eq_map, fieldLines_eq_map, List.forall₂_map_left_iff,
        List.forall₂_map_right_iff]
      refine List.forall₂_same.2 fun entry hentry => ?_
      have hvalue := ih entry.1 entry.2 (fields.mem_toList_iff.1 hentry) (depth + 1)
        (Json.string entry.1 ++ [':', ' '])
      simpa using hvalue
    exact laysOut_framed hitems

/-- Each line of a value is indented by the containers around it. -/
theorem indented_lines (v : Value) (depth : Nat) {before after : List Char}
    (hbefore : Inert before) (hafter : Inert after) :
    Indented depth (v.lines depth before after) depth := by
  induction v using Value.induction generalizing depth before after with
  | scalar v h =>
    have hline : Inert (before ++ v.scalar ++ after) := (hbefore.append (.scalar h)).append hafter
    rw [lines_of_isScalar h]
    refine .singleton ⟨?_, hline.free.after_eq, hline.not_isControl⟩ ?_
    · have hfirst := hline.free.closesFirst_append (show closesFirst [] = 0 from rfl)
      rw [List.append_nil] at hfirst
      rw [hfirst, add_zero]
    · rw [hline.free.openBrackets_eq_zero, add_zero]
  | array elements ih =>
    refine IsPair.array.indented_framed hbefore hafter (.separated ?_)
    rw [elementLines_eq_map]
    intro item hitem after hafter
    obtain ⟨v, hv, rfl⟩ := List.mem_map.1 hitem
    exact_mod_cast ih v hv (depth + 1) .nil hafter
  | object fields ih =>
    refine IsPair.object.indented_framed hbefore hafter (.separated ?_)
    rw [fieldLines_eq_map]
    intro item hitem after hafter
    obtain ⟨⟨name, v⟩, hentry, rfl⟩ := List.mem_map.1 hitem
    exact_mod_cast ih name v (fields.mem_toList_iff.1 hentry) (depth + 1) (.name name) hafter

end Value

namespace Json

theorem Free.tabs (depth : Nat) : Free IsBracket (List.replicate depth '\t') := by
  apply Free.of_forall
  intro c hc
  obtain rfl := List.eq_of_mem_replicate hc
  simp [IsBracket]

theorem Line.openBrackets_chars (line : Line) :
    openBrackets line.chars = openBrackets line.content := by
  have htabs := Free.tabs line.depth
  rw [chars, openBrackets_append htabs.after_eq, htabs.openBrackets_eq_zero, zero_add]

theorem Line.Indented.after_chars {depth : Int} {line : Line} (h : line.Indented depth) :
    Place.outside.after line.chars = .outside := by
  rw [chars, Place.after_append, (Free.tabs line.depth).after_eq, h.after_eq]

theorem Line.Indented.not_mem {depth : Int} {line : Line} (h : line.Indented depth) :
    '\n' ∉ line.chars := by
  rw [chars, List.mem_append, not_or]
  constructor
  · intro hmem
    exact absurd (List.eq_of_mem_replicate hmem) (by decide)
  · exact fun hmem => h.not_isControl _ hmem (by simp [IsControl])

def leadingTabs (cs : List Char) : Nat := (cs.takeWhile (· = '\t')).length

def afterTabs (cs : List Char) : List Char := cs.dropWhile (· = '\t')

theorem Line.Indented.leadingTabs_chars {depth : Int} {line : Line} (h : line.Indented depth) :
    leadingTabs line.chars = line.depth ∧ afterTabs line.chars = line.content := by
  have htabs : ∀ c ∈ List.replicate line.depth '\t', decide (c = '\t') := fun c hc => by
    simpa using List.eq_of_mem_replicate hc
  have hcontent : ∀ c ∈ line.content, ¬ decide (c = '\t') := by
    intro c hc heq
    exact h.not_isControl c hc (by simp_all [IsControl])
  rw [leadingTabs, afterTabs, chars, List.takeWhile_append_of_pos htabs,
    List.dropWhile_append_of_pos htabs]
  cases hline : line.content with
  | nil => simp
  | cons c rest =>
    have hc : ¬ decide (c = '\t') := hcontent c (hline ▸ List.mem_cons_self)
    simp [hc]

/-- Every line of an indented text is indented by the brackets that the lines before it leave
open. -/
theorem Indented.of_append {first last : Int} {earlier later : List Line} {line : Line}
    (h : Indented first (earlier ++ line :: later) last) :
    line.Indented (first + openBrackets (earlier.map Line.chars).flatten) := by
  induction earlier generalizing first with
  | nil => simpa [openBrackets, placed] using h.1
  | cons before earlier ih =>
    obtain ⟨hbefore, hrest⟩ := h
    rw [List.map_cons, List.flatten_cons, openBrackets_append hbefore.after_chars,
      Line.openBrackets_chars, ← add_assoc]
    exact ih hrest

theorem Indented.of_mem {first last : Int} {lines : List Line} (h : Indented first lines last)
    {line : Line} (hline : line ∈ lines) : ∃ depth, line.Indented depth := by
  obtain ⟨earlier, later, rfl⟩ := List.append_of_mem hline
  exact ⟨_, h.of_append⟩

end Json

namespace Value

open Json

theorem indented_lines_zero (v : Value) : Indented 0 (v.lines 0 [] []) 0 := by
  exact_mod_cast v.indented_lines 0 .nil .nil

theorem splitOn_toPrettyJson (v : Value) :
    v.toPrettyJson.toList.splitOn '\n' = (v.lines 0 [] []).map Line.chars := by
  obtain ⟨hne, hjoin⟩ := v.laysOut_lines 0 [] []
  have htext : v.toPrettyJson.toList = joinLines (v.lines 0 [] []) := by
    simpa [toPrettyJson] using hjoin.symm
  rw [htext, joinLines, List.splitOn_intercalate]
  · intro chars hchars
    obtain ⟨line, hline, rfl⟩ := List.mem_map.1 hchars
    obtain ⟨depth, hdepth⟩ := v.indented_lines_zero.of_mem hline
    exact hdepth.not_mem
  · simpa using hne

/-- Without its layout the indented text of a value is its text on one line. Its lines are those of
its items, with the brackets of an array or an object on lines of their own if there are any, and
each line begins with as many tabs as brackets stand open before it, less the one that it closes
first. -/
theorem toPrettyJson_layout (v : Value) :
    withoutLayout v.toPrettyJson.toList = v.toJson.toList ∧
    v.toPrettyJson.toList.splitOn '\n' = (v.lines 0 [] []).map Line.chars ∧
    ∀ earlier line later, v.toPrettyJson.toList.splitOn '\n' = earlier ++ line :: later →
      leadingTabs line + closesFirst (afterTabs line) = openBrackets earlier.flatten := by
  refine ⟨?_, splitOn_toPrettyJson v, ?_⟩
  · have hshort := v.shortens_prettyAt 0 []
    have hnone : withoutLayout [] = [] := rfl
    rw [List.append_nil, hnone, List.append_nil] at hshort
    simpa [toPrettyJson, toJson] using hshort
  · intro earlier line later hsplit
    rw [splitOn_toPrettyJson] at hsplit
    obtain ⟨before, rest, hlines, rfl, hrest⟩ := List.map_eq_append_iff.1 hsplit
    obtain ⟨found, after, rfl, rfl, -⟩ := List.map_eq_cons_iff.1 hrest
    have hfound := (hlines ▸ v.indented_lines_zero).of_append
    obtain ⟨htabs, hcontent⟩ := hfound.leadingTabs_chars
    rw [htabs, hcontent, hfound.depth_eq, zero_add]

/-- A name with a bracket and a space after a colon, an object without fields and a string with a
line end and a tab. -/
theorem toPrettyJson_layout_nested :
    let v := object (.cons "a: [" trivial (array [object .nil, string "\n\t"]) .nil)
    let earlier := ["\x7b", "\t\"a: [\": [", "\t\t\x7b\x7d,", "\t\t\"\\n\\t\""].map String.toList
    v.toPrettyJson.toList.splitOn '\n' = earlier ++ "\t]".toList :: ["\x7d".toList] ∧
    leadingTabs "\t]".toList + closesFirst (afterTabs "\t]".toList) = openBrackets earlier.flatten ∧
    openBrackets earlier.flatten = 2 := by
  intro v earlier
  have hlayout := toPrettyJson_layout v
  have hsplit : v.toPrettyJson.toList.splitOn '\n' =
      earlier ++ "\t]".toList :: ["\x7d".toList] := hlayout.2.1.trans (by decide +kernel)
  exact ⟨hsplit, hlayout.2.2 _ _ _ hsplit, by decide⟩

end Value

end JsonShorthand
