import Mathlib.Data.List.Chain
import JsonShorthand.Proofs.Source
import JsonShorthand.Proofs.ViablePrefix
import JsonShorthand.Token.Lexer

namespace JsonShorthand

/-- A symbol, one of the ways to write it, and the number of spaces after it. -/
structure Tile where
  symbol : Symbol
  source : List Char
  written : Written symbol source
  gap : Nat

namespace Tile

def chars (tile : Tile) : List Char := tile.source ++ List.replicate tile.gap ' '

def first (tile : Tile) : Char := tile.source.headD ' '

/-- Without spaces between them, the second of two tiles begins with a character that ends the
first. -/
def PartedFrom (tile next : Tile) : Prop :=
  tile.gap = 0 → Lexeme.endsBefore tile.first next.first

instance (tile next : Tile) : Decidable (tile.PartedFrom next) :=
  inferInstanceAs (Decidable (tile.gap = 0 → Lexeme.endsBefore tile.first next.first))

theorem exists_source_eq (tile : Tile) :
    ∃ body, tile.source = tile.first :: body ∧ tile.first ≠ ' ' := by
  obtain ⟨first, body, hsource, hfirst⟩ := tile.written.exists_cons
  have heq : tile.first = first := by rw [Tile.first, hsource]; rfl
  exact ⟨body, heq ▸ hsource, heq ▸ hfirst⟩

theorem head?_chars_append (tile : Tile) (rest : List Char) :
    (tile.chars ++ rest).head? = some tile.first := by
  obtain ⟨body, hsource, -⟩ := tile.exists_source_eq
  rw [chars, hsource]
  rfl

theorem first_eq_of_append {tile : Tile} {c : Char} {cs rest : List Char}
    (h : tile.source ++ rest = c :: cs) : tile.first = c := by
  obtain ⟨body, hsource, -⟩ := tile.exists_source_eq
  rw [hsource] at h
  exact (List.cons.inj h).1

theorem byteLength_source_pos (tile : Tile) : 0 < byteLength tile.source := by
  obtain ⟨body, hsource, -⟩ := tile.exists_source_eq
  rw [hsource]
  exact Nat.add_pos_left (Char.utf8Size_pos _) _

end Tile

structure Layout where
  gap : Nat
  tiles : List Tile
  parted : tiles.IsChain Tile.PartedFrom

structure Span where
  tile : Tile
  start : Nat

namespace Span

def stop (span : Span) : Nat := span.start + byteLength span.tile.source

/-- The symbol of a span, at the byte where its text starts. -/
def token (span : Span) : Token :=
  ⟨span.tile.symbol, span.start + Lexeme.leadOf span.tile.first⟩

end Span

def spansFrom (offset : Nat) : List Tile → List Span
  | [] => []
  | tile :: tiles => ⟨tile, offset⟩ :: spansFrom (offset + byteLength tile.chars) tiles

namespace Layout

def chars (layout : Layout) : List Char :=
  List.replicate layout.gap ' ' ++ layout.tiles.flatMap Tile.chars

def text (layout : Layout) : String := .ofList layout.chars

def symbols (layout : Layout) : List Symbol := layout.tiles.map Tile.symbol

def spans (layout : Layout) : List Span := spansFrom layout.gap layout.tiles

def tokens (layout : Layout) : List Token := layout.spans.map Span.token

end Layout

theorem byteLength_cons (c : Char) (cs : List Char) :
    byteLength (c :: cs) = c.utf8Size + byteLength cs := rfl

@[simp] theorem byteLength_spaces (gap : Nat) : byteLength (List.replicate gap ' ') = gap := by
  induction gap with
  | zero => rfl
  | succ gap ih =>
    rw [List.replicate_succ, byteLength_cons, ih]
    exact Nat.add_comm 1 gap

theorem Tile.byteLength_chars (tile : Tile) :
    byteLength tile.chars = byteLength tile.source + tile.gap := by
  rw [chars, byteLength_append, byteLength_spaces]

theorem map_tile_spansFrom (offset : Nat) (tiles : List Tile) :
    (spansFrom offset tiles).map Span.tile = tiles := by
  induction tiles generalizing offset with
  | nil => rfl
  | cons tile tiles ih => rw [spansFrom, List.map_cons, ih]

theorem length_spansFrom_le (offset : Nat) (tiles : List Tile) :
    (spansFrom offset tiles).length ≤ byteLength (tiles.flatMap Tile.chars) := by
  induction tiles generalizing offset with
  | nil => exact Nat.le_refl 0
  | cons tile tiles ih =>
    have hsource := tile.byteLength_source_pos
    have hrest := ih (offset + byteLength tile.chars)
    rw [spansFrom, List.length_cons, List.flatMap_cons, byteLength_append, tile.byteLength_chars]
    rw [tile.byteLength_chars] at hrest
    omega

theorem exists_append_of_mem_spansFrom {offset : Nat} {tiles : List Tile} {span : Span}
    (h : span ∈ spansFrom offset tiles) :
    ∃ before after, tiles.flatMap Tile.chars = before ++ (span.tile.source ++ after) ∧
      span.start = offset + byteLength before := by
  induction tiles generalizing offset with
  | nil => simp [spansFrom] at h
  | cons tile tiles ih =>
    rcases List.mem_cons.1 h with rfl | h
    · exact ⟨[], List.replicate tile.gap ' ' ++ tiles.flatMap Tile.chars, by simp [Tile.chars], rfl⟩
    · obtain ⟨before, after, hchars, hstart⟩ := ih h
      refine ⟨tile.chars ++ before, after, by simp [hchars], ?_⟩
      rw [hstart, byteLength_append, Nat.add_assoc]

theorem le_start_of_mem_spansFrom {offset : Nat} {tiles : List Tile} {span : Span}
    (h : span ∈ spansFrom offset tiles) : offset ≤ span.start := by
  obtain ⟨before, after, -, hstart⟩ := exists_append_of_mem_spansFrom h
  omega

theorem pairwise_spansFrom (offset : Nat) (tiles : List Tile) :
    (spansFrom offset tiles).Pairwise fun earlier later => earlier.stop ≤ later.start := by
  induction tiles generalizing offset with
  | nil => exact List.Pairwise.nil
  | cons tile tiles ih =>
    refine List.pairwise_cons.2 ⟨fun later hlater => ?_, ih _⟩
    have hstart := le_start_of_mem_spansFrom hlater
    rw [tile.byteLength_chars] at hstart
    show offset + byteLength tile.source ≤ later.start
    omega

theorem Span.start_lt_stop (span : Span) : span.start < span.stop :=
  Nat.lt_add_of_pos_right span.tile.byteLength_source_pos

theorem lexFrom_spaces (offset gap : Nat) (cs : List Char) :
    lexFrom offset (List.replicate gap ' ' ++ cs) = lexFrom (offset + gap) cs := by
  induction gap generalizing offset with
  | zero => rfl
  | succ gap ih =>
    rw [List.replicate_succ, List.cons_append, lexFrom_space, ih, Nat.add_assoc, Nat.add_comm 1]

theorem Tile.ends_chars {tile : Tile} {tiles : List Tile}
    (h : (tile :: tiles).IsChain Tile.PartedFrom) :
    Lexeme.Ends tile.first (List.replicate tile.gap ' ' ++ tiles.flatMap Tile.chars) := by
  intro next hnext
  cases hgap : tile.gap with
  | zero =>
    cases tiles with
    | nil => simp [hgap] at hnext
    | cons second tiles =>
      have hparted := (List.isChain_cons_cons.1 h).1 hgap
      rw [hgap, List.replicate_zero, List.nil_append, List.flatMap_cons,
        second.head?_chars_append] at hnext
      rwa [← Option.some.inj hnext]
  | succ gap =>
    rw [hgap, List.replicate_succ] at hnext
    exact Lexeme.ends_of_isDelimiter (Spells.isDelimiter_of_head? rfl _) tile.first next hnext

theorem lexFrom_tile {tile : Tile} {rest : List Char}
    (h : Lexeme.Ends tile.first (List.replicate tile.gap ' ' ++ rest)) (offset : Nat) :
    lexFrom offset (tile.chars ++ rest) =
      .cons (Span.mk tile offset).token (lexFrom (offset + byteLength tile.chars) rest) := by
  obtain ⟨body, hsource, hfirst⟩ := tile.exists_source_eq
  have hwritten : Written tile.symbol (tile.first :: body) := hsource ▸ tile.written
  have hchars : tile.chars ++ rest =
      tile.first :: (body ++ (List.replicate tile.gap ' ' ++ rest)) := by
    simp [Tile.chars, hsource]
  rw [hchars, lexFrom_of_scan? hfirst (Lexeme.scan?_of_written hwritten h), lexFrom_spaces,
    tile.byteLength_chars, hsource, Nat.add_assoc]
  rfl

/-- The tokens of tiles in a row are what was written. -/
theorem toList_lexFrom_tiles {tiles : List Tile} (h : tiles.IsChain Tile.PartedFrom)
    (offset : Nat) :
    (lexFrom offset (tiles.flatMap Tile.chars)).toList =
      (spansFrom offset tiles).map fun span => .token span.token := by
  induction tiles generalizing offset with
  | nil => simp [TokenStream.toList, spansFrom]
  | cons tile tiles ih =>
    have hrest := ih (List.isChain_of_isChain_cons h) (offset + byteLength tile.chars)
    rw [List.flatMap_cons, lexFrom_tile (Tile.ends_chars h), TokenStream.toList, hrest, spansFrom,
      List.map_cons]

theorem Layout.toList_lex_text (layout : Layout) :
    (lex layout.text).toList = layout.tokens.map Pull.token := by
  rw [lex, Layout.text, String.toList_ofList, Layout.chars, lexFrom_spaces,
    toList_lexFrom_tiles layout.parted, Nat.zero_add, Layout.tokens, List.map_map]
  rfl

/-- Every quote among some characters is escaped by a backslash before it. -/
def Quoted.NeverCloses (cs : List Char) : Prop :=
  ∀ before after, cs = before ++ '"' :: after → before.getLast? = some '\\'

theorem Quoted.neverCloses_of_split? {cs : List Char} (h : split? cs = none) :
    NeverCloses cs := by
  intro before after hcs
  fun_induction split? cs generalizing before with
  | case1 => simp at hcs
  | case2 rest => contradiction
  | case3 cs ih =>
    rcases before with _ | ⟨c, _ | ⟨d, before⟩⟩
    · simp at hcs
    · simpa using (List.cons.inj hcs).1.symm
    · obtain ⟨-, hcs⟩ := List.cons.inj (List.cons.inj hcs).2
      have hlast := ih (Option.map_eq_none_iff.1 h) before hcs
      simp [List.getLast?_cons, hlast]
  | case4 c cs hquote hbackslash ih =>
    cases before with
    | nil => exact absurd (List.cons.inj hcs).1 hquote
    | cons d before =>
      have hlast := ih (Option.map_eq_none_iff.1 h) before (List.cons.inj hcs).2
      simp [List.getLast?_cons, hlast]

/-- What a layout leaves over of a text: nothing, or a quote that nothing closes. -/
def IsLeftOver (left : List Char) : Prop :=
  left = [] ∨ ∃ cs, left = '"' :: cs ∧ Quoted.NeverCloses cs

/-- What requests bring before the end for tiles from a byte offset on and what they leave over. -/
def itemsFrom (offset : Nat) (tiles : List Tile) (left : List Char) : List Pull :=
  (spansFrom offset tiles).map (fun span => .token span.token) ++
    if left = [] then [] else [.unclosed (offset + byteLength (tiles.flatMap Tile.chars))]

theorem itemsFrom_cons (offset : Nat) (tile : Tile) (tiles : List Tile) (left : List Char) :
    itemsFrom offset (tile :: tiles) left =
      .token (Span.mk tile offset).token ::
        itemsFrom (offset + byteLength tile.chars) tiles left := by
  simp [itemsFrom, spansFrom, byteLength_append, Nat.add_assoc]

theorem length_itemsFrom_le (offset : Nat) (tiles : List Tile) (left : List Char) :
    (itemsFrom offset tiles left).length ≤ byteLength (tiles.flatMap Tile.chars ++ left) := by
  have hspans := length_spansFrom_le offset tiles
  rw [itemsFrom, List.length_append, List.length_map, byteLength_append]
  cases left with
  | nil => simpa using Nat.le_add_right_of_le hspans
  | cons c cs =>
    have hc := Char.utf8Size_pos c
    rw [if_neg (List.cons_ne_nil c cs), List.length_singleton, byteLength_cons]
    omega

/-- Every text is laid out up to a quote that nothing closes, and its items are those of the
layout. -/
theorem exists_layout (cs : List Char) (offset : Nat) :
    ∃ (layout : Layout) (left : List Char), cs = layout.chars ++ left ∧ IsLeftOver left ∧
      (lexFrom offset cs).toList = itemsFrom (offset + layout.gap) layout.tiles left := by
  induction cs using lexeme_induction generalizing offset with
  | nil =>
    refine ⟨⟨0, [], .nil⟩, [], rfl, .inl rfl, ?_⟩
    rw [lexFrom_nil]
    rfl
  | space cs ih =>
    obtain ⟨layout, left, hchars, hleft, hitems⟩ := ih (offset + 1)
    refine ⟨⟨layout.gap + 1, layout.tiles, layout.parted⟩, left, ?_, hleft, ?_⟩
    · rw [hchars]
      rfl
    · rw [lexFrom_space, hitems, Nat.add_right_comm, Nat.add_assoc]
  | unclosed c cs hc hscan =>
    obtain ⟨rfl, hsplit⟩ := (Lexeme.scan?_eq_none_iff c cs).1 hscan
    have hcloses := Quoted.neverCloses_of_split? hsplit
    refine ⟨⟨0, [], .nil⟩, '"' :: cs, rfl, .inr ⟨cs, rfl, hcloses⟩, ?_⟩
    rw [lexFrom_of_unclosed hc hscan]
    rfl
  | lexeme c cs lexeme hc hscan ih =>
    obtain ⟨layout, left, hchars, hleft, hitems⟩ := ih (offset + byteLength lexeme.source)
    -- the spaces in front of the next lexeme belong to this tile
    let tile : Tile := ⟨lexeme.symbol, lexeme.source, lexeme.written_source hc hscan, layout.gap⟩
    have hsource : tile.source ++ lexeme.rest = c :: cs := Lexeme.source_append_rest hscan
    have hrest : lexeme.rest =
        List.replicate tile.gap ' ' ++ (layout.tiles.flatMap Tile.chars ++ left) := by
      rw [hchars, Layout.chars, List.append_assoc]
    have hends : Lexeme.Ends tile.first
        (List.replicate tile.gap ' ' ++ (layout.tiles.flatMap Tile.chars ++ left)) := by
      rw [Tile.first_eq_of_append hsource, ← hrest]
      exact Lexeme.ends_rest hscan
    have hparted : (tile :: layout.tiles).IsChain Tile.PartedFrom := by
      refine List.isChain_cons.2 ⟨fun next hnext hgap => hends next.first ?_, layout.parted⟩
      obtain ⟨others, hothers⟩ := List.head?_eq_some_iff.1 hnext
      rw [hgap, hothers, List.flatMap_cons, List.append_assoc]
      exact next.head?_chars_append _
    have htext : c :: cs = tile.chars ++ (layout.tiles.flatMap Tile.chars ++ left) := by
      rw [← hsource, hrest, Tile.chars, List.append_assoc]
    refine ⟨⟨0, tile :: layout.tiles, hparted⟩, left, ?_, hleft, ?_⟩
    · rw [htext, ← List.append_assoc]
      rfl
    · have hmore : (lexFrom (offset + byteLength tile.chars)
          (layout.tiles.flatMap Tile.chars ++ left)).toList =
            itemsFrom (offset + byteLength tile.chars) layout.tiles left := by
        rw [tile.byteLength_chars, ← Nat.add_assoc, ← lexFrom_spaces, ← hrest]
        exact hitems
      rw [htext, lexFrom_tile hends, TokenStream.toList, hmore]
      exact (itemsFrom_cons offset tile layout.tiles left).symm

theorem lexFrom_eq_finished {cs : List Char} {offset size : Nat}
    (h : lexFrom offset cs = .finished size) : size = offset + byteLength cs := by
  induction cs using lexeme_induction generalizing offset with
  | nil =>
    rw [lexFrom_nil] at h
    exact (TokenStream.finished.inj h).symm
  | space cs ih =>
    rw [lexFrom_space] at h
    rw [ih h, Nat.add_assoc]
    rfl
  | unclosed c cs hc hscan => simp [lexFrom_of_unclosed hc hscan] at h
  | lexeme c cs lexeme hc hscan ih => simp [lexFrom_of_scan? hc hscan] at h

theorem Lexer.next_skip (lexer : Lexer) (count : Nat) :
    (lexer.skip count).next.1 =
      lexer.stream.toList[count]?.getD (.endOfInput lexer.input.utf8ByteSize) := by
  induction count generalizing lexer with
  | zero =>
    have hnext : lexer.stream.pull.1 = lexer.next.1 := congrArg Prod.fst lexer.pull_stream
    rw [skip, ← hnext]
    cases hstream : lexer.stream with
    | finished size =>
      obtain rfl := lexFrom_eq_finished hstream
      rw [lexer.fits]
      rfl
    | unclosed quote size | cons token rest => rfl
  | succ count ih =>
    have hrest : lexer.stream.pull.2 = lexer.next.2.stream := congrArg Prod.snd lexer.pull_stream
    rw [skip, ih, ← hrest, lexer.input_next]
    cases lexer.stream with
    | finished size | unclosed quote size | cons token rest => rfl

/-- The requests to a lexer bring the tokens of a layout of its text, then an error if a quote is
left over that nothing closes, and from then on only the end of the text. -/
theorem lexer_tiles_input (input : String) :
    ∃ (layout : Layout) (left : List Char),
      input.toList = layout.chars ++ left ∧
      (left = [] ∨ ∃ cs, left = '"' :: cs ∧ Quoted.NeverCloses cs) ∧
      (layout.spans.Pairwise fun earlier later => earlier.stop ≤ later.start) ∧
      (∀ span ∈ layout.spans, span.start < span.stop ∧ ∃ before after,
        input.toList = before ++ span.tile.source ++ after ∧ byteLength before = span.start) ∧
      let items := layout.tokens.map Pull.token ++
        if left = [] then [] else [.unclosed (byteLength layout.chars)]
      items.length ≤ input.utf8ByteSize ∧
        ∀ count, ((Lexer.ofText input).skip count).next.1 =
          items[count]?.getD (.endOfInput input.utf8ByteSize) := by
  obtain ⟨layout, left, hchars, hleft, hitems⟩ := exists_layout input.toList 0
  rw [Nat.zero_add] at hitems
  have hsize : byteLength layout.chars =
      layout.gap + byteLength (layout.tiles.flatMap Tile.chars) := by
    rw [Layout.chars, byteLength_append, byteLength_spaces]
  have hshown : itemsFrom layout.gap layout.tiles left = layout.tokens.map Pull.token ++
      if left = [] then [] else [.unclosed (byteLength layout.chars)] := by
    rw [itemsFrom, hsize, Layout.tokens, List.map_map]
    rfl
  refine ⟨layout, left, hchars, hleft, pairwise_spansFrom _ _, fun span hspan => ?_, ?_, ?_⟩
  · obtain ⟨before, after, htiles, hstart⟩ := exists_append_of_mem_spansFrom hspan
    refine ⟨span.start_lt_stop, List.replicate layout.gap ' ' ++ before, after ++ left, ?_, ?_⟩
    · rw [hchars, Layout.chars, htiles]
      simp only [List.append_assoc]
    · rw [byteLength_append, byteLength_spaces, hstart]
  · rw [← hshown, ← byteLength_toList, hchars, Layout.chars, List.append_assoc, byteLength_append]
    exact Nat.le_add_left_of_le (length_itemsFrom_le _ _ _)
  · intro count
    rw [← hshown, ← hitems]
    exact (Lexer.ofText input).next_skip count

theorem TokenStream.symbols?_of_toList {stream : TokenStream} {tokens : List Token}
    (h : stream.toList = tokens.map Pull.token) :
    stream.symbols? = some (tokens.map Token.symbol) := by
  induction stream generalizing tokens with
  | finished size =>
    obtain rfl : tokens = [] := by simpa [toList] using h.symm
    rfl
  | unclosed quote size =>
    cases tokens <;> simp [toList] at h
  | cons token rest ih =>
    cases tokens with
    | nil => simp [toList] at h
    | cons first tokens =>
      obtain ⟨hfirst, hrest⟩ := List.cons.inj h
      obtain rfl := Pull.token.inj hfirst
      rw [symbols?, ih hrest]
      rfl

namespace Reader

variable {State Result : Type} (reader : Reader State Result)

/-- What a reader makes of symbols from a state on, with the index of a faulty one; the end of the
symbols has the index after the last. -/
def verdict (state : State) : List Symbol → Except (Cause × Nat) Result
  | [] => (reader.finish state).mapError fun cause => (cause, 0)
  | symbol :: rest =>
    match reader.step state symbol rest.head? with
    | .ok next => (verdict next rest).mapError fun fault => (fault.1, fault.2 + 1)
    | .error cause => .error (cause, 0)

theorem verdict_cons_of_ok {state next : State} {symbol : Symbol} {rest : List Symbol}
    (h : reader.step state symbol rest.head? = .ok next) :
    reader.verdict state (symbol :: rest) =
      (reader.verdict next rest).mapError fun fault => (fault.1, fault.2 + 1) := by
  rw [verdict, h]

theorem verdict_cons_of_error {state : State} {symbol : Symbol} {rest : List Symbol} {cause : Cause}
    (h : reader.step state symbol rest.head? = .error cause) :
    reader.verdict state (symbol :: rest) = .error (cause, 0) := by
  rw [verdict, h]

/-- The symbols of a stream settle what a reader makes of it, and the positions of its tokens only
where a fault is told. -/
theorem run_eq_verdict {stream : TokenStream} {symbols : List Symbol}
    (h : stream.symbols? = some symbols) (state : State) :
    (reader.run state stream).1 = (reader.verdict state symbols).mapError fun fault =>
      ⟨fault.1, stream.positionAt fault.2⟩ := by
  induction stream generalizing state symbols with
  | finished size =>
    obtain rfl : symbols = [] := by simpa [TokenStream.symbols?, eq_comm] using h
    rw [run_finished, verdict]
    cases reader.finish state <;> rfl
  | unclosed quote size => simp [TokenStream.symbols?] at h
  | cons token rest ih =>
    obtain ⟨others, hothers, rfl⟩ := Option.map_eq_some_iff.1 h
    have hclosed := TokenStream.ne_unclosed_of_symbols? hothers
    have hhead := TokenStream.head?_of_symbols? hothers
    cases hstep : reader.step state token.symbol rest.head? with
    | ok next =>
      rw [reader.run_cons_of_ok hclosed hstep, ih hothers,
        reader.verdict_cons_of_ok (hhead ▸ hstep)]
      cases reader.verdict next others <;> rfl
    | error cause =>
      rw [reader.run_cons_of_error hclosed hstep, reader.verdict_cons_of_error (hhead ▸ hstep)]
      rfl

end Reader

theorem Layout.tokens_symbols (layout : Layout) :
    layout.tokens.map Token.symbol = layout.symbols := by
  have htiles := map_tile_spansFrom layout.gap layout.tiles
  rw [tokens, spans, symbols, ← htiles, List.map_map, List.map_map, htiles]
  rfl

/-- However symbols are written and spaced, they are the tokens of the text, and expressions are
read alike, with a fault at the same token. -/
theorem layouts_are_read_alike (layout : Layout) :
    (lex layout.text).toList = layout.tokens.map Pull.token ∧
      layout.tokens.map Token.symbol = layout.symbols ∧
      ∀ other : Layout, other.symbols = layout.symbols →
        match readForest layout.text with
        | .ok forest => readForest other.text = .ok forest
        | .error error => ∃ index,
          error.fault.position = (lex layout.text).positionAt index ∧
            readForest other.text =
              .error ⟨other.text, ⟨error.fault.cause, (lex other.text).positionAt index⟩⟩ := by
  -- the verdict is about the symbols alone; the text only places its fault
  have hread (other : Layout) (h : other.symbols = layout.symbols) :
      readForest other.text = (Forest.reader.verdict .start layout.symbols).mapError fun fault =>
        ⟨other.text, fault.1, (lex other.text).positionAt fault.2⟩ := by
    have hsymbols := TokenStream.symbols?_of_toList other.toList_lex_text
    rw [other.tokens_symbols, h] at hsymbols
    have htext : readForest other.text =
        (Forest.reader.run .start (lex other.text)).1.mapError (⟨other.text, ·⟩) := rfl
    rw [htext, Forest.reader.run_eq_verdict hsymbols]
    cases Forest.reader.verdict .start layout.symbols <;> rfl
  refine ⟨layout.toList_lex_text, layout.tokens_symbols, fun other h => ?_⟩
  rw [hread layout rfl, hread other h]
  cases Forest.reader.verdict .start layout.symbols with
  | ok forest => rfl
  | error fault => exact ⟨fault.2, rfl, rfl⟩

/-- Tabs and line feeds, which end a raw literal and a variable but begin a bare literal, against
spaces and quotes. -/
theorem layouts_are_read_alike_quoted :
    ∃ layout other : Layout, layout.text = "x=:1\ty=[$v\n]" ∧
      other.text = " x =  :1 \"\ty\"=[ $v \"\n\" ]" ∧ other.symbols = layout.symbols ∧
      (lex layout.text).toList = layout.tokens.map Pull.token ∧
      ∃ forest, readForest layout.text = .ok forest ∧ readForest other.text = .ok forest := by
  let layout : Layout := ⟨0, [⟨.literal "x", _, .bare (by decide), 0⟩, ⟨.assign, _, .assign, 0⟩,
    ⟨.raw "1", _, .raw (by decide), 0⟩, ⟨.literal "\ty", _, .bare (by decide), 0⟩,
    ⟨.assign, _, .assign, 0⟩, ⟨.openBracket, _, .openBracket, 0⟩,
    ⟨.var "v", _, .var (by decide), 0⟩, ⟨.literal "\n", _, .bare (by decide), 0⟩,
    ⟨.closeBracket, _, .closeBracket, 0⟩], by decide⟩
  let other : Layout := ⟨1, [⟨.literal "x", _, .bare (by decide), 1⟩, ⟨.assign, _, .assign, 2⟩,
    ⟨.raw "1", _, .raw (by decide), 1⟩, ⟨.literal "\ty", _, .quoted (by decide), 0⟩,
    ⟨.assign, _, .assign, 0⟩, ⟨.openBracket, _, .openBracket, 1⟩,
    ⟨.var "v", _, .var (by decide), 1⟩, ⟨.literal "\n", _, .quoted (by decide), 1⟩,
    ⟨.closeBracket, _, .closeBracket, 0⟩], by decide⟩
  have htext : layout.text = "x=:1\ty=[$v\n]" := by decide
  have hother : other.text = " x =  :1 \"\ty\"=[ $v \"\n\" ]" := by decide
  have hread : readForest layout.text = .ok [.object (.cons "\ty" trivial
      (.array [.var "v", .value (.string "\n")])
        (.cons "x" (show "\ty" < "x" by decide) (.value (.integer 1)) .nil))] := by
    rw [htext]
    cbv
  obtain ⟨htokens, -, halike⟩ := layouts_are_read_alike layout
  have hforest := halike other rfl
  rw [hread] at hforest
  exact ⟨layout, other, htext, hother, rfl, htokens, _, hread, hforest⟩

/-- A space before the token of a fault moves the fault, which is told at a byte of the text. -/
theorem fault_moves_with_spaces :
    ∃ layout other : Layout, layout.text = "\x7b\x7d\x7d" ∧ other.text = "\x7b\x7d \x7d" ∧
      other.symbols = layout.symbols ∧
      readForest layout.text = .error ⟨layout.text, ⟨.unexpectedInput, 2⟩⟩ ∧
      readForest other.text = .error ⟨other.text, ⟨.unexpectedInput, 3⟩⟩ ∧
      readForest layout.text ≠ readForest other.text := by
  let layout : Layout := ⟨0, [⟨.openBrace, _, .openBrace, 0⟩, ⟨.closeBrace, _, .closeBrace, 0⟩,
    ⟨.closeBrace, _, .closeBrace, 0⟩], by decide⟩
  let other : Layout := ⟨0, [⟨.openBrace, _, .openBrace, 0⟩, ⟨.closeBrace, _, .closeBrace, 1⟩,
    ⟨.closeBrace, _, .closeBrace, 0⟩], by decide⟩
  have htext : layout.text = "\x7b\x7d\x7d" := by decide
  have hother : other.text = "\x7b\x7d \x7d" := by decide
  have hread : readForest layout.text = .error ⟨layout.text, ⟨.unexpectedInput, 2⟩⟩ := by
    rw [htext]
    cbv
  have hreadOther : readForest other.text = .error ⟨other.text, ⟨.unexpectedInput, 3⟩⟩ := by
    rw [hother]
    cbv
  refine ⟨layout, other, htext, hother, rfl, hread, hreadOther, ?_⟩
  rw [hread, hreadOther]
  simp

end JsonShorthand
