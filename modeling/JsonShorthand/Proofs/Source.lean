import JsonShorthand.Proofs.Lexing

namespace JsonShorthand

def opensBare (c : Char) : Bool :=
  !(c = ' ' || c = '{' || c = '}' || c = '[' || c = ']' || c = '.' || c = '=' || c = '"' ||
    c = ':' || c = '$')

/-- A literal that needs no quotes. -/
def IsBare : List Char → Prop
  | [] => False
  | c :: cs => opensBare c ∧ ∀ d ∈ cs, ¬ isBareDelimiter d

instance : (cs : List Char) → Decidable (IsBare cs)
  | [] => .isFalse id
  | c :: cs =>
    decidable_of_iff (opensBare c ∧ cs.all fun d => !isBareDelimiter d) (by simp [IsBare])

def IsUndelimited (cs : List Char) : Prop := ∀ d ∈ cs, ¬ isDelimiter d

instance (cs : List Char) : Decidable (IsUndelimited cs) :=
  decidable_of_iff (cs.all fun d => !isDelimiter d) (by simp [IsUndelimited])

/-- A symbol and one of the ways to write it. -/
inductive Written : Symbol → List Char → Prop where
  | openBrace : Written .openBrace ['{']
  | closeBrace : Written .closeBrace ['}']
  | openBracket : Written .openBracket ['[']
  | closeBracket : Written .closeBracket [']']
  | dot : Written .dot ['.']
  | assign : Written .assign ['=']
  | bare {text : String} (h : IsBare text.toList) : Written (.literal text) text.toList
  | quoted {text : String} (h : text.toList.getLast? ≠ some '\\') :
    Written (.literal text) ('"' :: (Quoted.escape text.toList ++ ['"']))
  | raw {text : String} (h : IsUndelimited text.toList) : Written (.raw text) (':' :: text.toList)
  | var {name : String} (h : IsUndelimited name.toList) : Written (.var name) ('$' :: name.toList)

theorem Lexeme.scan?_of_opensBare {c : Char} (h : opensBare c) (cs : List Char) :
    scan? c cs = some (bare c cs) := by
  unfold scan?
  split
  case h_10 => rfl
  all_goals simp [opensBare] at h

theorem Lexeme.endsBefore_of_opensBare {c : Char} (h : opensBare c) (next : Char) :
    endsBefore c next = isBareDelimiter next := by
  unfold endsBefore
  split
  case h_10 => rfl
  all_goals simp [opensBare] at h

theorem getLast?_ne_of_cons {c d : Char} {cs : List Char} (h : (c :: cs).getLast? ≠ some d) :
    cs.getLast? ≠ some d := by
  intro hlast
  exact h (by simp [List.getLast?_cons, hlast])

/-- A backslash at the end would escape the closing quote. -/
theorem Quoted.split?_escape {cs : List Char} (h : cs.getLast? ≠ some '\\') (rest : List Char) :
    Quoted.split? (Quoted.escape cs ++ '"' :: rest) = some (Quoted.escape cs, rest) := by
  fun_induction Quoted.escape cs with
  | case1 => rfl
  | case2 cs ih =>
    simp [Quoted.split?, ih (getLast?_ne_of_cons h)]
  | case3 c cs hc ih =>
    have hnext : ∀ more, c = '\\' → Quoted.escape cs ++ '"' :: rest = '"' :: more → False := by
      intro more hbackslash hmore
      cases hescape : Quoted.escape cs with
      | nil =>
        have hnil : cs = [] := by
          rw [← Quoted.unescape_escape cs, hescape]
          rfl
        exact h (by simp [hnil, hbackslash])
      | cons d ds =>
        rw [hescape] at hmore
        have hd : d = '"' := (List.cons.inj hmore).1
        exact Quoted.escape_ne_quote_cons cs ds (hd ▸ hescape)
    rw [List.cons_append, Quoted.split?, ih (getLast?_ne_of_cons h)]
    · rfl
    · exact hc
    · exact hnext

/-- What stands between quotes is what would be written for its text, which has no backslash at its
end: that would have escaped the quote. -/
theorem Quoted.escape_unescape {cs body rest : List Char}
    (h : Quoted.split? cs = some (body, rest)) :
    Quoted.escape (Quoted.unescape body) = body ∧
      (Quoted.unescape body).getLast? ≠ some '\\' := by
  fun_induction Quoted.split? cs generalizing body rest with
  | case1 => simp at h
  | case2 rest' =>
    obtain ⟨rfl, rfl⟩ : [] = body ∧ rest' = rest := by simpa using h
    exact ⟨rfl, by simp [Quoted.unescape]⟩
  | case3 cs ih =>
    obtain ⟨⟨body', rest'⟩, hsplit, heq⟩ := Option.map_eq_some_iff.1 h
    obtain ⟨rfl, rfl⟩ := Prod.mk.inj heq
    obtain ⟨hescape, hlast⟩ := ih hsplit
    refine ⟨by simp [Quoted.unescape, Quoted.escape, hescape], ?_⟩
    rw [Quoted.unescape, List.getLast?_cons]
    cases hbody : (Quoted.unescape body').getLast? with
    | none => simp
    | some d => simpa [hbody] using hlast
  | case4 c cs hquote hbackslash ih =>
    obtain ⟨⟨body', rest'⟩, hsplit, heq⟩ := Option.map_eq_some_iff.1 h
    obtain ⟨rfl, rfl⟩ := Prod.mk.inj heq
    obtain ⟨hescape, hlast⟩ := ih hsplit
    have hcs := Quoted.eq_append_of_split? hsplit
    -- were `c` a backslash in front of a quote, the two would have been taken together
    have hnext : ∀ more, c = '\\' → body' = '"' :: more → False := by
      rintro more rfl rfl
      exact hbackslash _ rfl hcs
    have hunescape : Quoted.unescape (c :: body') = c :: Quoted.unescape body' := by
      rw [Quoted.unescape]
      exact hnext
    rw [hunescape]
    refine ⟨?_, ?_⟩
    · rw [Quoted.escape, hescape]
      exact hquote
    · rw [List.getLast?_cons]
      cases hbody : (Quoted.unescape body').getLast? with
      | none =>
        have hnil : body' = [] := by
          rw [← hescape, List.getLast?_eq_none_iff.1 hbody]
          rfl
        subst hnil
        intro hc
        exact hbackslash _ (by simpa using hc) hcs
      | some d => simpa [hbody] using hlast

/-- A lexeme is one of the ways to write its symbol. -/
theorem Lexeme.written_source {c : Char} {cs : List Char} {lexeme : Lexeme} (hc : c ≠ ' ')
    (h : scan? c cs = some lexeme) : Written lexeme.symbol lexeme.source := by
  have hbody (p : Char → Bool) : ∀ d ∈ cs.takeWhile fun d => !p d, ¬ p d := by
    intro d hd
    simpa using List.all_eq_true.1 List.all_takeWhile d hd
  have hrun : IsUndelimited (String.ofList (cs.takeWhile fun d => !isDelimiter d)).toList := by
    rw [String.toList_ofList]
    exact hbody isDelimiter
  unfold scan? at h
  -- quoted, raw, variable and bare lexemes; the marks are left
  split at h
  case h_7 =>
    obtain ⟨⟨body, rest⟩, hsplit, rfl⟩ := Option.map_eq_some_iff.1 h
    obtain ⟨hescape, hlast⟩ := Quoted.escape_unescape hsplit
    have hwritten : Written (.literal (.ofList (Quoted.unescape body))) _ :=
      .quoted (by simpa using hlast)
    simpa [hescape] using hwritten
  case h_8 =>
    obtain rfl := Option.some.inj h
    simpa [introduced] using Written.raw hrun
  case h_9 =>
    obtain rfl := Option.some.inj h
    simpa [introduced] using Written.var hrun
  case h_10 =>
    obtain rfl := Option.some.inj h
    have hopens : opensBare c := by simp_all [opensBare]
    have hbare : IsBare (String.ofList (c :: cs.takeWhile fun d => !isBareDelimiter d)).toList := by
      rw [String.toList_ofList]
      exact ⟨hopens, hbody isBareDelimiter⟩
    simpa [bare] using Written.bare hbare
  all_goals
    obtain rfl := Option.some.inj h
    constructor

theorem exists_written_of_mem_lexFrom {token : Token} {offset : Nat} {cs : List Char}
    (h : .token token ∈ (lexFrom offset cs).toList) : ∃ source, Written token.symbol source := by
  induction cs using lexeme_induction generalizing offset with
  | nil => simp [TokenStream.toList] at h
  | space cs ih => exact ih (by rwa [lexFrom_space] at h)
  | unclosed c cs hc hscan => simp [lexFrom_of_unclosed hc hscan, TokenStream.toList] at h
  | lexeme c cs lexeme hc hscan ih =>
    rw [lexFrom_of_scan? hc hscan, TokenStream.toList, List.mem_cons] at h
    rcases h with heq | hrest
    · obtain rfl := Pull.token.inj heq
      exact ⟨lexeme.source, Lexeme.written_source hc hscan⟩
    · exact ih hrest

theorem exists_written_of_symbolsOf {cs : List Char} {symbols : List Symbol}
    (h : symbolsOf cs = some symbols) {symbol : Symbol} (hsymbol : symbol ∈ symbols) :
    ∃ source, Written symbol source := by
  obtain ⟨position, hmem⟩ := TokenStream.exists_token_of_symbols? h hsymbol
  exact exists_written_of_mem_lexFrom hmem

theorem symbolsOf_of_mark {symbol : Symbol} {c : Char} {rest : List Char} (hc : c ≠ ' ')
    (h : Lexeme.scan? c rest = some (.ofMark symbol c rest)) :
    symbolsOf ([c] ++ rest) = (symbolsOf rest).map (symbol :: ·) := symbolsOf_of_scan? hc h

theorem introduced_append_of_isUndelimited (symbol : String → Symbol) (c : Char)
    {text : String} {rest : List Char} (h : IsUndelimited text.toList)
    (hrest : ∀ d, rest.head? = some d → isDelimiter d) :
    Lexeme.introduced symbol c (text.toList ++ rest) =
      ⟨symbol text, 1, c :: text.toList, rest⟩ := by
  have hstop : ∀ d, rest.head? = some d → ¬ (!isDelimiter d) := fun d hd => by
    simpa using hrest d hd
  have hspan := span_append_of_stop (p := fun d => !isDelimiter d)
    (by simpa [IsUndelimited] using h) hstop
  simp [Lexeme.introduced, hspan]

theorem Written.exists_cons {symbol : Symbol} {source : List Char} (h : Written symbol source) :
    ∃ first body, source = first :: body ∧ first ≠ ' ' := by
  cases h with
  | @bare text h =>
    cases htext : text.toList with
    | nil => simp [IsBare, htext] at h
    | cons first body =>
      rw [htext] at h
      refine ⟨first, body, rfl, ?_⟩
      rintro rfl
      exact absurd h.1 (by decide)
  | _ => exact ⟨_, _, rfl, by decide⟩

/-- The number of characters before the text of a symbol in a source that begins with `first`: a
quote, a colon or a dollar sign. -/
def Lexeme.leadOf (first : Char) : Nat :=
  match first with
  | '"' | ':' | '$' => 1
  | _ => 0

theorem Lexeme.leadOf_of_opensBare {c : Char} (h : opensBare c) : leadOf c = 0 := by
  unfold leadOf
  split
  case h_4 => rfl
  all_goals simp [opensBare] at h

/-- Any way to write a symbol is scanned as the symbol in front of what ends it. -/
theorem Lexeme.scan?_of_written {symbol : Symbol} {first : Char} {body rest : List Char}
    (h : Written symbol (first :: body)) (hrest : Ends first rest) :
    scan? first (body ++ rest) = some ⟨symbol, leadOf first, first :: body, rest⟩ := by
  generalize hsource : first :: body = source at h
  cases h with
  | @bare text h =>
    rw [← hsource] at h
    obtain ⟨hopens, hbody⟩ := h
    have hsymbol : text = .ofList (first :: body) := by rw [hsource, String.ofList_toList]
    have hstop : ∀ d, rest.head? = some d → ¬ (!isBareDelimiter d) := fun d hd => by
      simpa [endsBefore_of_opensBare hopens] using hrest d hd
    have hspan := span_append_of_stop (p := fun d => !isBareDelimiter d) (by simpa using hbody)
      hstop
    rw [scan?_of_opensBare hopens, hsymbol, String.toList_ofList]
    simp [bare, hspan, leadOf_of_opensBare hopens]
  | @quoted text h =>
    obtain ⟨rfl, rfl⟩ := List.cons.inj hsource
    simp [scan?, quoted?, Quoted.split?_escape h, Quoted.unescape_escape, leadOf]
  | @raw text h | @var text h =>
    obtain ⟨rfl, rfl⟩ := List.cons.inj hsource
    exact congrArg some (introduced_append_of_isUndelimited _ _ h hrest)
  | _ =>
    obtain ⟨rfl, rfl⟩ := List.cons.inj hsource
    rfl

theorem symbolsOf_append_of_written {symbol : Symbol} {source : List Char}
    (h : Written symbol source) {rest : List Char}
    (hrest : ∀ first, source.head? = some first → Lexeme.Ends first rest) :
    symbolsOf (source ++ rest) = (symbolsOf rest).map (symbol :: ·) := by
  obtain ⟨first, body, rfl, hfirst⟩ := h.exists_cons
  exact symbolsOf_of_scan? hfirst (Lexeme.scan?_of_written h (hrest first rfl))

/-- Two texts that are each scanned in the same way before any rest that stops them, one after the
other. -/
theorem scan_append_of_stop {τ : Type} {scan : List Char → Option (List τ)} {stop : Char → Prop}
    {text more : List Char} {symbols others : List τ}
    (htext : ∀ rest : List Char, (∀ d, rest.head? = some d → stop d) →
      scan (text ++ rest) = (scan rest).map (symbols ++ ·))
    (hmore : ∀ rest : List Char, (∀ d, rest.head? = some d → stop d) →
      scan (more ++ rest) = (scan rest).map (others ++ ·))
    (hhead : ∀ d, more.head? = some d → stop d) (rest : List Char)
    (hrest : ∀ d, rest.head? = some d → stop d) :
    scan (text ++ more ++ rest) = (scan rest).map (symbols ++ others ++ ·) := by
  have hboth : ∀ d, (more ++ rest).head? = some d → stop d := by
    intro d hd
    cases more with
    | nil => exact hrest d hd
    | cons first more => exact hhead d hd
  rw [List.append_assoc, htext _ hboth, hmore _ hrest, Option.map_map]
  congr 1
  funext following
  simp

/-- The characters `text` are read as `symbols` if a delimiter or nothing follows them. -/
def Spells (text : List Char) (symbols : List Symbol) : Prop :=
  ∀ rest : List Char, (∀ d, rest.head? = some d → isDelimiter d) →
    symbolsOf (text ++ rest) = (symbolsOf rest).map (symbols ++ ·)

namespace Spells

theorem symbolsOf_eq {text : List Char} {symbols : List Symbol} (h : Spells text symbols) :
    symbolsOf text = some symbols := by
  have hempty := h [] (by simp)
  simpa using hempty

theorem isDelimiter_of_head? {c : Char} (hc : isDelimiter c) (cs : List Char) :
    ∀ d, (c :: cs).head? = some d → isDelimiter d := by
  intro d hd
  obtain rfl : c = d := Option.some.inj hd
  exact hc

theorem nil : Spells [] [] := by
  intro rest _
  cases hrest : symbolsOf rest <;> simp [hrest]

theorem of_symbolsOf {text : List Char} {symbols : List Symbol}
    (h : symbolsOf text = some symbols) : Spells text symbols := by
  intro rest hrest
  have hlex : symbolsOf (text ++ rest) =
      ((lexFrom 0 text).append (lexFrom (0 + byteLength text) rest)).symbols? :=
    congrArg _ (lexFrom_append (by simp [h]) hrest 0)
  rw [hlex, TokenStream.symbols?_append h, symbols?_lexFrom]

theorem of_written {symbol : Symbol} {source : List Char} (h : Written symbol source) :
    Spells source [symbol] := by
  intro rest hrest
  exact symbolsOf_append_of_written h fun first _ => Lexeme.ends_of_isDelimiter hrest first

theorem append {text more : List Char} {symbols others : List Symbol} (htext : Spells text symbols)
    (hmore : Spells more others) (hhead : ∀ d, more.head? = some d → isDelimiter d) :
    Spells (text ++ more) (symbols ++ others) :=
  scan_append_of_stop htext hmore hhead

theorem space_cons {text : List Char} {symbols : List Symbol} (h : Spells text symbols) :
    Spells (' ' :: text) symbols := by
  intro rest hrest
  rw [List.cons_append, symbolsOf_space]
  exact h rest hrest

theorem mark_cons {symbol : Symbol} {c : Char} {text : List Char} {symbols : List Symbol}
    (hc : c ≠ ' ') (hscan : ∀ rest, Lexeme.scan? c rest = some (.ofMark symbol c rest))
    (h : Spells text symbols) : Spells (c :: text) (symbol :: symbols) := by
  intro rest hrest
  have hmark := symbolsOf_of_mark hc (hscan (text ++ rest))
  rw [List.cons_append, show c :: (text ++ rest) = [c] ++ (text ++ rest) from rfl, hmark,
    h rest hrest, Option.map_map]
  congr 1

theorem braces {symbols : List Symbol} {text : List Char} (h : Spells text symbols) :
    Spells ('{' :: (text ++ ['}'])) (.openBrace :: (symbols ++ [.closeBrace])) := by
  apply mark_cons (by decide) fun rest => rfl
  exact h.append (of_written .closeBrace) (isDelimiter_of_head? rfl [])

theorem brackets {symbols : List Symbol} {text : List Char} (h : Spells text symbols) :
    Spells ('[' :: (text ++ [']'])) (.openBracket :: (symbols ++ [.closeBracket])) := by
  apply mark_cons (by decide) fun rest => rfl
  exact h.append (of_written .closeBracket) (isDelimiter_of_head? rfl [])

theorem cons_intercalate {item : List Char} {items : List (List Char)}
    {symbols others : List Symbol} (hitem : Spells item symbols)
    (hitems : Spells ([' '].intercalate items) others) :
    Spells ([' '].intercalate (item :: items)) (symbols ++ others) := by
  cases items with
  | nil =>
    have hothers : others = [] := by simpa using hitems.symbolsOf_eq.symm
    simpa [hothers] using hitem
  | cons second items =>
    rw [List.intercalate_cons_cons, List.append_assoc]
    exact hitem.append hitems.space_cons (isDelimiter_of_head? rfl _)

theorem intercalate {α : Type} {text : α → List Char} {symbols : α → List Symbol}
    {items : List α} (h : ∀ item ∈ items, Spells (text item) (symbols item)) :
    Spells ([' '].intercalate (items.map text)) (items.flatMap symbols) := by
  induction items with
  | nil => exact nil
  | cons item items ih =>
    obtain ⟨hitem, hitems⟩ := List.forall_mem_cons.1 h
    exact hitem.cons_intercalate (ih hitems)

/-- Nothing need part a dot from a literal before it. -/
theorem append_dot {text more : List Char} {symbols others : List Symbol}
    (htext : symbolsOf text = some symbols) (hsymbols : ∀ symbol ∈ symbols, symbol.endsAtDot)
    (hmore : Spells more others) : Spells (text ++ '.' :: more) (symbols ++ .dot :: others) := by
  intro rest hrest
  have hdot : Spells ('.' :: more) (.dot :: others) := mark_cons (by decide) (fun _ => rfl) hmore
  rw [List.append_assoc, List.cons_append, symbolsOf_append_dot htext hsymbols,
    ← List.cons_append, hdot rest hrest, Option.map_map]
  congr 1
  funext following
  simp

end Spells

theorem symbolsOf_brackets (text : List Char) :
    symbolsOf ('[' :: (text ++ [']'])) =
      (symbolsOf text).map fun symbols => .openBracket :: (symbols ++ [.closeBracket]) := by
  cases hsymbols : symbolsOf text with
  | some symbols => exact (Spells.of_symbolsOf hsymbols).brackets.symbolsOf_eq
  | none =>
    have hmore : symbolsOf (text ++ [']']) = none :=
      symbolsOf_append_eq_none (by decide) (Spells.isDelimiter_of_head? rfl []) hsymbols
    have hmark : symbolsOf ('[' :: (text ++ [']'])) =
        (symbolsOf (text ++ [']'])).map (.openBracket :: ·) := symbolsOf_of_mark (by decide) rfl
    rw [hmark, hmore]
    rfl

end JsonShorthand
