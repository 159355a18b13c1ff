import JsonShorthand.Proofs.Symbols

namespace JsonShorthand

/-- The symbols of some characters; `none` if a quote among them is never closed. -/
def symbolsOf (cs : List Char) : Option (List Symbol) := (lexFrom 0 cs).symbols?

/-- Induction from lexeme to lexeme. -/
theorem lexeme_induction {motive : List Char → Prop} (nil : motive [])
    (space : ∀ cs, motive cs → motive (' ' :: cs))
    (unclosed : ∀ c cs, c ≠ ' ' → Lexeme.scan? c cs = none → motive (c :: cs))
    (lexeme : ∀ c cs lexeme, c ≠ ' ' → Lexeme.scan? c cs = some lexeme → motive lexeme.rest →
      motive (c :: cs)) (cs : List Char) : motive cs := by
  apply lexFrom.induct (motive := fun _ cs => motive cs) ?_ ?_ ?_ ?_ 0 cs
  · exact fun _ => nil
  · intro offset cs ih
    exact space cs ih
  · intro offset c cs hc hscan
    exact unclosed c cs hc hscan
  · intro offset c cs hc first hscan ih
    exact lexeme c cs first hc hscan ih

theorem symbols?_lexFrom (offset : Nat) (cs : List Char) :
    (lexFrom offset cs).symbols? = symbolsOf cs := by
  unfold symbolsOf
  generalize 0 = other
  induction cs using lexeme_induction generalizing offset other with
  | nil => simp [TokenStream.symbols?]
  | space cs ih =>
    rw [lexFrom_space, lexFrom_space]
    exact ih _ _
  | unclosed c cs hc hscan => simp [lexFrom_of_unclosed hc hscan, TokenStream.symbols?]
  | lexeme c cs lexeme hc hscan ih =>
    simp only [lexFrom_of_scan? hc hscan, TokenStream.symbols?]
    rw [ih (offset + byteLength lexeme.source)]

theorem symbols?_lex (input : String) : (lex input).symbols? = symbolsOf input.toList := rfl

@[simp] theorem symbolsOf_nil : symbolsOf [] = some [] := by
  simp [symbolsOf, TokenStream.symbols?]

@[simp] theorem symbolsOf_space (cs : List Char) : symbolsOf (' ' :: cs) = symbolsOf cs := by
  rw [symbolsOf, lexFrom_space, symbols?_lexFrom]

theorem symbolsOf_of_scan? {c : Char} {cs : List Char} {lexeme : Lexeme} (hc : c ≠ ' ')
    (h : Lexeme.scan? c cs = some lexeme) :
    symbolsOf (c :: cs) = (symbolsOf lexeme.rest).map (lexeme.symbol :: ·) := by
  rw [symbolsOf, lexFrom_of_scan? hc h, TokenStream.symbols?, symbols?_lexFrom]

theorem symbolsOf_of_unclosed {c : Char} {cs : List Char} (hc : c ≠ ' ')
    (h : Lexeme.scan? c cs = none) : symbolsOf (c :: cs) = none := by
  rw [symbolsOf, lexFrom_of_unclosed hc h, TokenStream.symbols?]

/-- Whether a dot ends a symbol; raw literals and the names of variables go on through it. -/
def Symbol.endsAtDot : Symbol → Bool
  | raw _ | var _ => false
  | _ => true

theorem span_append_of_stop {p : Char → Bool} {body rest : List Char} (hbody : ∀ d ∈ body, p d)
    (hrest : ∀ d, rest.head? = some d → ¬ p d) :
    (body ++ rest).takeWhile p = body ∧ (body ++ rest).dropWhile p = rest := by
  rw [List.takeWhile_append_of_pos hbody, List.dropWhile_append_of_pos hbody]
  cases rest with
  | nil => simp
  | cons d rest =>
    have hd : ¬ p d := hrest d rfl
    simp [hd]

theorem Quoted.split?_body_append {cs body rest : List Char}
    (h : Quoted.split? cs = some (body, rest)) (other : List Char) :
    Quoted.split? (body ++ '"' :: other) = some (body, other) := by
  fun_induction Quoted.split? cs generalizing body rest with
  | case1 => simp at h
  | case2 rest' =>
    obtain ⟨rfl, rfl⟩ : [] = body ∧ rest' = rest := by simpa using h
    rfl
  | case3 cs ih =>
    obtain ⟨⟨body', rest'⟩, hsplit, heq⟩ := Option.map_eq_some_iff.1 h
    obtain ⟨rfl, rfl⟩ := Prod.mk.inj heq
    simp [Quoted.split?, ih hsplit]
  | case4 c cs hquote hescape ih =>
    obtain ⟨⟨body', rest'⟩, hsplit, heq⟩ := Option.map_eq_some_iff.1 h
    obtain ⟨rfl, rfl⟩ := Prod.mk.inj heq
    have hcs := Quoted.eq_append_of_split? hsplit
    have hnext : ∀ more, c = '\\' → body' ++ '"' :: other = '"' :: more → False := by
      intro more hc hmore
      -- the character after the backslash is the same before any rest
      cases body' with
      | nil => exact hescape _ hc hcs
      | cons d body' => exact hescape _ hc (hcs.trans (by rw [(List.cons.inj hmore).1]; rfl))
    rw [List.cons_append, Quoted.split?, ih hsplit]
    · rfl
    · exact hquote
    · exact hnext

theorem Quoted.split?_of_append {cs rest : List Char} (hrest : '"' ∉ rest)
    (h : split? cs = none) : split? (cs ++ rest) = none := by
  cases hsplit : split? (cs ++ rest) with
  | none => rfl
  | some parts =>
    obtain ⟨body, after⟩ := parts
    rcases List.append_eq_append_iff.1 (eq_append_of_split? hsplit) with
      ⟨more, -, hmore⟩ | ⟨more, hcs, hmore⟩
    · exact absurd (hmore ▸ List.mem_append_right more List.mem_cons_self) hrest
    · cases more with
      | nil => exact absurd (List.nil_append rest ▸ hmore ▸ List.mem_cons_self) hrest
      | cons d more =>
        obtain ⟨rfl, -⟩ := List.cons.inj hmore
        rw [hcs, split?_body_append hsplit more] at h
        contradiction

namespace Lexeme

/-- Whether the lexeme that begins with `first` ends before the character `next`. -/
def endsBefore (first next : Char) : Bool :=
  match first with
  | '{' | '}' | '[' | ']' | '.' | '=' | '"' => true
  | ':' | '$' => isDelimiter next
  | _ => isBareDelimiter next

def Ends (first : Char) (rest : List Char) : Prop :=
  ∀ next, rest.head? = some next → endsBefore first next

/-- A lexeme is scanned again in front of any other rest that ends it. -/
theorem scan?_again {c : Char} {cs : List Char} {lexeme : Lexeme}
    (h : scan? c cs = some lexeme) {rest : List Char} (hrest : Ends c rest) :
    ∃ body, lexeme.source = c :: body ∧
      scan? c (body ++ rest) = some ⟨lexeme.symbol, lexeme.lead, lexeme.source, rest⟩ := by
  -- a run that a delimiter ends is the same run in front of any other delimiter
  have hstop : ∀ p : Char → Bool, (∀ d, endsBefore c d = p d) →
      ∀ cs' : List Char, let body := cs'.takeWhile fun d => !p d
      ((body ++ rest).takeWhile fun d => !p d) = body ∧
        ((body ++ rest).dropWhile fun d => !p d) = rest := by
    intro p hp cs'
    apply span_append_of_stop
    · intro d hd
      exact List.all_eq_true.1 List.all_takeWhile d hd
    · intro d hd
      simpa [hp] using hrest d hd
  unfold scan? at h ⊢
  split at h
  -- a quoted literal ends at its quote, the others where a delimiter stops them
  case h_7 =>
    obtain ⟨⟨body, rest'⟩, hsplit, rfl⟩ := Option.map_eq_some_iff.1 h
    refine ⟨body ++ ['"'], rfl, ?_⟩
    simp [quoted?, Quoted.split?_body_append hsplit]
  case h_8 | h_9 =>
    obtain rfl := Option.some.inj h
    have hspan := hstop isDelimiter (fun d => rfl) cs
    exact ⟨_, rfl, by simp [introduced, hspan]⟩
  case h_10 =>
    obtain rfl := Option.some.inj h
    have hspan := hstop isBareDelimiter (fun d => by simp_all [endsBefore]) cs
    exact ⟨_, rfl, by simp_all [bare]⟩
  all_goals
    obtain rfl := Option.some.inj h
    exact ⟨[], rfl, rfl⟩

theorem scan?_eq_none_iff (c : Char) (cs : List Char) :
    scan? c cs = none ↔ c = '"' ∧ Quoted.split? cs = none := by
  unfold scan?
  split <;> simp_all [quoted?]

theorem ends_rest {c : Char} {cs : List Char} {lexeme : Lexeme} (h : scan? c cs = some lexeme) :
    Ends c lexeme.rest := by
  intro next hnext
  have hdrop (p : Char → Bool) (cs : List Char)
      (hhead : (cs.dropWhile fun d => !p d).head? = some next) : p next := by
    have hnot := List.head?_dropWhile_not (fun d => !p d) cs
    simpa [hhead] using hnot
  unfold scan? at h
  split at h
  case h_7 => rfl
  case h_8 | h_9 =>
    obtain rfl := Option.some.inj h
    exact hdrop isDelimiter cs hnext
  case h_10 =>
    obtain rfl := Option.some.inj h
    have hbare := hdrop isBareDelimiter cs hnext
    simp_all [endsBefore]
  all_goals rfl

theorem ends_of_isDelimiter {rest : List Char} (h : ∀ d, rest.head? = some d → isDelimiter d)
    (first : Char) : Ends first rest := by
  intro d hd
  have hdelimiter := h d hd
  unfold endsBefore
  split <;> simp [isBareDelimiter, hdelimiter]

theorem ends_dot {c : Char} {cs : List Char} {lexeme : Lexeme} (h : scan? c cs = some lexeme)
    (hsymbol : lexeme.symbol.endsAtDot) (rest : List Char) : Ends c ('.' :: rest) := by
  intro next hnext
  obtain rfl : '.' = next := Option.some.inj hnext
  unfold endsBefore
  split
  case h_8 | h_9 =>
    obtain rfl := Option.some.inj h
    contradiction
  all_goals rfl

/-- What ended a lexeme ends it again when more characters follow, and where the text ended it they
have to. -/
theorem scan?_append_of_ends {c : Char} {cs rest : List Char} {lexeme : Lexeme}
    (h : scan? c cs = some lexeme) (hrest : lexeme.rest = [] → Ends c rest) :
    scan? c (cs ++ rest) =
      some ⟨lexeme.symbol, lexeme.lead, lexeme.source, lexeme.rest ++ rest⟩ := by
  have hends : Ends c (lexeme.rest ++ rest) := by
    intro next hnext
    cases hmore : lexeme.rest with
    | nil =>
      rw [hmore] at hnext
      exact hrest hmore next hnext
    | cons d more =>
      rw [hmore] at hnext
      exact ends_rest h next (by simpa [hmore] using hnext)
  obtain ⟨body, hsource, hagain⟩ := scan?_again h hends
  have hcs : body ++ lexeme.rest = cs := by
    have htext := source_append_rest h
    rw [hsource, List.cons_append] at htext
    exact (List.cons.inj htext).2
  rw [← hcs, List.append_assoc, hagain]

theorem scan?_append {c : Char} {cs rest : List Char} {lexeme : Lexeme}
    (h : scan? c cs = some lexeme) (hrest : ∀ d, rest.head? = some d → isDelimiter d) :
    scan? c (cs ++ rest) =
      some ⟨lexeme.symbol, lexeme.lead, lexeme.source, lexeme.rest ++ rest⟩ :=
  scan?_append_of_ends h fun _ => ends_of_isDelimiter hrest c

theorem byteLength_of_scan? {c : Char} {cs : List Char} {lexeme : Lexeme}
    (h : scan? c cs = some lexeme) :
    byteLength (c :: cs) = byteLength lexeme.source + byteLength lexeme.rest := by
  rw [← byteLength_append, source_append_rest h]

end Lexeme

namespace TokenStream

/-- Puts a stream in the place of the end of another; an unclosed quote leaves no such place. -/
def append : TokenStream → TokenStream → TokenStream
  | finished _, later => later
  | unclosed quote size, _ => unclosed quote size
  | cons token rest, later => cons token (rest.append later)

def shift (offset : Nat) : TokenStream → TokenStream
  | finished size => finished (size + offset)
  | unclosed quote size => unclosed (quote + offset) (size + offset)
  | cons token rest => cons ⟨token.symbol, token.position + offset⟩ (rest.shift offset)

theorem symbols?_append {stream : TokenStream} {symbols : List Symbol}
    (h : stream.symbols? = some symbols) (later : TokenStream) :
    (stream.append later).symbols? = later.symbols?.map (symbols ++ ·) := by
  induction stream generalizing symbols with
  | finished size =>
    obtain rfl : symbols = [] := by simpa [symbols?, eq_comm] using h
    simp [append]
  | unclosed quote size => simp [symbols?] at h
  | cons token rest ih =>
    obtain ⟨others, hothers, rfl⟩ := Option.map_eq_some_iff.1 h
    rw [append, symbols?, ih hothers, Option.map_map]
    rfl

@[simp] theorem symbols?_shift (offset : Nat) (stream : TokenStream) :
    (stream.shift offset).symbols? = stream.symbols? := by
  induction stream with
  | cons token rest ih => simp [shift, symbols?, ih]
  | _ => rfl

end TokenStream

theorem lexFrom_add (start offset : Nat) (cs : List Char) :
    lexFrom (start + offset) cs = (lexFrom start cs).shift offset := by
  induction cs using lexeme_induction generalizing start with
  | nil => simp [TokenStream.shift]
  | space cs ih => rw [lexFrom_space, lexFrom_space, ← ih, Nat.add_right_comm]
  | unclosed c cs hc hscan =>
    simp [lexFrom_of_unclosed hc hscan, TokenStream.shift, Nat.add_right_comm]
  | lexeme c cs lexeme hc hscan ih =>
    simp [lexFrom_of_scan? hc hscan, TokenStream.shift, Nat.add_right_comm, ← ih]

/-- A text without an unclosed quote is read in the same way in front of a delimiter. -/
theorem lexFrom_append {text rest : List Char} (htext : symbolsOf text ≠ none)
    (hrest : ∀ d, rest.head? = some d → isDelimiter d) (offset : Nat) :
    lexFrom offset (text ++ rest) =
      (lexFrom offset text).append (lexFrom (offset + byteLength text) rest) := by
  induction text using lexeme_induction generalizing offset with
  | nil => simp [TokenStream.append, byteLength]
  | space text ih =>
    have hsize : byteLength (' ' :: text) = 1 + byteLength text := rfl
    rw [List.cons_append, lexFrom_space, lexFrom_space, ih (by simpa using htext), hsize,
      Nat.add_assoc]
  | unclosed c text hc hscan => simp [symbolsOf_of_unclosed hc hscan] at htext
  | lexeme c text lexeme hc hscan ih =>
    have hmore : symbolsOf lexeme.rest ≠ none := by
      simpa [symbolsOf_of_scan? hc hscan] using htext
    rw [List.cons_append, lexFrom_of_scan? hc (Lexeme.scan?_append hscan hrest),
      lexFrom_of_scan? hc hscan, TokenStream.append, ih hmore, Lexeme.byteLength_of_scan? hscan,
      Nat.add_assoc]

theorem symbolsOf_append_eq_none {text rest : List Char} (hquote : '"' ∉ rest)
    (hrest : ∀ d, rest.head? = some d → isDelimiter d) (h : symbolsOf text = none) :
    symbolsOf (text ++ rest) = none := by
  induction text using lexeme_induction with
  | nil => simp at h
  | space text ih =>
    rw [List.cons_append, symbolsOf_space, ih (by simpa using h)]
  | unclosed c text hc hscan =>
    obtain ⟨rfl, hsplit⟩ := (Lexeme.scan?_eq_none_iff c text).1 hscan
    exact symbolsOf_of_unclosed hc
      ((Lexeme.scan?_eq_none_iff _ _).2 ⟨rfl, Quoted.split?_of_append hquote hsplit⟩)
  | lexeme c text lexeme hc hscan ih =>
    have hmore : symbolsOf lexeme.rest = none := by
      simpa [symbolsOf_of_scan? hc hscan] using h
    rw [List.cons_append, symbolsOf_of_scan? hc (Lexeme.scan?_append hscan hrest), ih hmore]
    rfl

theorem symbolsOf_append_dot {text : List Char} {symbols : List Symbol}
    (h : symbolsOf text = some symbols) (hsymbols : ∀ symbol ∈ symbols, symbol.endsAtDot)
    (rest : List Char) :
    symbolsOf (text ++ '.' :: rest) = (symbolsOf ('.' :: rest)).map (symbols ++ ·) := by
  induction text using lexeme_induction generalizing symbols with
  | nil =>
    obtain rfl : symbols = [] := by simpa using h.symm
    simp
  | space text ih =>
    rw [symbolsOf_space] at h
    rw [List.cons_append, symbolsOf_space, ih h hsymbols]
  | unclosed c text hc hscan => simp [symbolsOf_of_unclosed hc hscan] at h
  | lexeme c text lexeme hc hscan ih =>
    rw [symbolsOf_of_scan? hc hscan] at h
    obtain ⟨others, hothers, rfl⟩ := Option.map_eq_some_iff.1 h
    obtain ⟨hfirst, hsymbols⟩ := List.forall_mem_cons.1 hsymbols
    have hagain := Lexeme.scan?_append_of_ends hscan fun _ => Lexeme.ends_dot hscan hfirst rest
    rw [List.cons_append, symbolsOf_of_scan? hc hagain, ih hothers hsymbols, Option.map_map]
    rfl

end JsonShorthand
