import JsonShorthand.Proofs.Source
import JsonShorthand.Token.Lexer

namespace JsonShorthand

/-- A literal in quotes has no backslash at its end, and is its text with every quote escaped. -/
theorem Lexeme.literal_of_quoted? {cs : List Char} {lexeme : Lexeme}
    (h : quoted? cs = some lexeme) :
    ∃ text : String, lexeme.symbol = .literal text ∧ text.toList.getLast? ≠ some '\\' ∧
      cs = Quoted.escape text.toList ++ '"' :: lexeme.rest := by
  obtain ⟨⟨body, rest⟩, hsplit, rfl⟩ := Option.map_eq_some_iff.1 h
  obtain ⟨hescape, hlast⟩ := Quoted.escape_unescape hsplit
  refine ⟨.ofList (Quoted.unescape body), rfl, ?_, ?_⟩
  · rwa [String.toList_ofList]
  · rw [String.toList_ofList, hescape]
    exact Quoted.eq_append_of_split? hsplit

theorem scan_spaces (position gap : Nat) (cs : List Char) :
    scan position (List.replicate gap ' ' ++ cs) = scan (position + gap) cs := by
  induction gap generalizing position with
  | zero => rfl
  | succ gap ih =>
    have hspace : scan position (List.replicate (gap + 1) ' ' ++ cs) =
        scan (position + 1) (List.replicate gap ' ' ++ cs) := rfl
    rw [hspace, ih, Nat.add_assoc, Nat.add_comm 1 gap]

theorem exists_written_of_scan {position : Nat} {cs : List Char} {token : Token}
    (h : (scan position cs).1 = .token token) :
    ∃ gap source, Written token.symbol source ∧
      cs = List.replicate gap ' ' ++ (source ++ (scan position cs).2.2) := by
  fun_induction scan position cs with
  | case1 position => contradiction
  | case2 position cs ih =>
    obtain ⟨gap, source, hwritten, hcs⟩ := ih h
    exact ⟨gap + 1, source, hwritten, congrArg (' ' :: ·) hcs⟩
  | case3 position c cs hc hscan => contradiction
  | case4 position c cs hc lexeme hscan =>
    obtain rfl := Pull.token.inj h
    exact ⟨0, lexeme.source, lexeme.written_source hc hscan,
      (Lexeme.source_append_rest hscan).symm⟩

namespace Lexer

variable {lexer : Lexer} {gap : Nat} {c : Char} {cs : List Char}

theorem next_of_scan? {lexeme : Lexeme}
    (hahead : lexer.ahead = List.replicate gap ' ' ++ c :: cs) (hc : c ≠ ' ')
    (hscan : Lexeme.scan? c cs = some lexeme) :
    lexer.next.1 = .token ⟨lexeme.symbol, lexer.position + gap + lexeme.lead⟩ ∧
      lexer.next.2.ahead = lexeme.rest := by
  have hfound : scan lexer.position lexer.ahead =
      (.token ⟨lexeme.symbol, lexer.position + gap + lexeme.lead⟩,
        lexer.position + gap + byteLength lexeme.source, lexeme.rest) := by
    rw [hahead, scan_spaces, scan, if_neg hc, hscan]
  exact ⟨congrArg Prod.fst hfound, congrArg (fun found => found.2.2) hfound⟩

theorem next_of_unclosed (hahead : lexer.ahead = List.replicate gap ' ' ++ c :: cs) (hc : c ≠ ' ')
    (hscan : Lexeme.scan? c cs = none) : lexer.next.1 = .unclosed (lexer.position + gap) := by
  show (scan lexer.position lexer.ahead).1 = _
  rw [hahead, scan_spaces, scan, if_neg hc, hscan]

theorem next_of_quoted {text : String} {rest : List Char}
    (hlast : text.toList.getLast? ≠ some '\\')
    (hahead : lexer.ahead =
      List.replicate gap ' ' ++ '"' :: (Quoted.escape text.toList ++ '"' :: rest)) :
    lexer.next.1 = .token ⟨.literal text, lexer.position + gap + 1⟩ ∧
      lexer.next.2.ahead = rest := by
  have hends : Lexeme.Ends '"' rest := fun _ _ => rfl
  have hscan := Lexeme.scan?_of_written (.quoted hlast) hends
  rw [List.append_assoc] at hscan
  exact next_of_scan? hahead (by decide) hscan

theorem quoted_of_next {text : String} {position : Nat}
    (hahead : lexer.ahead = List.replicate gap ' ' ++ '"' :: cs)
    (hnext : lexer.next.1 = .token ⟨.literal text, position⟩) :
    text.toList.getLast? ≠ some '\\' ∧
      cs = Quoted.escape text.toList ++ '"' :: lexer.next.2.ahead := by
  have hquote : Lexeme.scan? '"' cs = Lexeme.quoted? cs := rfl
  cases hscan : Lexeme.quoted? cs with
  | none => simp [next_of_unclosed hahead (by decide) (hquote.trans hscan)] at hnext
  | some lexeme =>
    obtain ⟨hfound, hrest⟩ := next_of_scan? hahead (by decide) (hquote.trans hscan)
    obtain ⟨other, hsymbol, hlast, hcs⟩ := Lexeme.literal_of_quoted? hscan
    rw [hsymbol] at hfound
    obtain rfl : other = text := by
      simpa using congrArg Token.symbol (Pull.token.inj (hfound.symm.trans hnext))
    rw [hrest]
    exact ⟨hlast, hcs⟩

theorem bare_of_next {text : String} {position : Nat}
    (hlast : text.toList.getLast? = some '\\')
    (hnext : lexer.next.1 = .token ⟨.literal text, position⟩) :
    IsBare text.toList ∧
      ∃ gap, lexer.ahead = List.replicate gap ' ' ++ (text.toList ++ lexer.next.2.ahead) := by
  obtain ⟨gap, source, hwritten, hahead⟩ := exists_written_of_scan hnext
  cases hwritten with
  | bare hbare => exact ⟨hbare, gap, hahead⟩
  | quoted hquoted => exact absurd hlast hquoted

end Lexer

/-- A request takes a literal from between quotes exactly if what stands there is a text without a
backslash at its end with its quotes escaped; so the text settles the characters between the quotes,
and a text with a backslash at its end is only ever taken as it is. -/
theorem quoted_literals_correspond (text : String) :
    (text.toList.getLast? ≠ some '\\' → ∀ (lexer : Lexer) (gap : Nat) (rest : List Char),
      lexer.ahead = List.replicate gap ' ' ++ '"' :: (Quoted.escape text.toList ++ '"' :: rest) →
        lexer.next.1 = .token ⟨.literal text, lexer.position + gap + 1⟩ ∧
          lexer.next.2.ahead = rest) ∧
    (∀ (lexer : Lexer) (gap position : Nat) (cs : List Char),
      lexer.ahead = List.replicate gap ' ' ++ '"' :: cs →
      lexer.next.1 = .token ⟨.literal text, position⟩ →
        text.toList.getLast? ≠ some '\\' ∧
          cs = Quoted.escape text.toList ++ '"' :: lexer.next.2.ahead) ∧
    (∀ (lexer other : Lexer) (gap otherGap position otherPosition : Nat)
        (body otherBody : List Char),
      lexer.ahead = List.replicate gap ' ' ++ '"' :: (body ++ '"' :: lexer.next.2.ahead) →
      other.ahead =
        List.replicate otherGap ' ' ++ '"' :: (otherBody ++ '"' :: other.next.2.ahead) →
      lexer.next.1 = .token ⟨.literal text, position⟩ →
      other.next.1 = .token ⟨.literal text, otherPosition⟩ → body = otherBody) ∧
    (text.toList.getLast? = some '\\' → ∀ (lexer : Lexer) (position : Nat),
      lexer.next.1 = .token ⟨.literal text, position⟩ →
        IsBare text.toList ∧
          ∃ gap, lexer.ahead = List.replicate gap ' ' ++ (text.toList ++ lexer.next.2.ahead)) := by
  refine ⟨?_, ?_, ?_, ?_⟩
  · intro hlast lexer gap rest hahead
    exact Lexer.next_of_quoted hlast hahead
  · intro lexer gap position cs hahead hnext
    exact Lexer.quoted_of_next hahead hnext
  · intro lexer other gap otherGap position otherPosition body otherBody hahead hother hnext hnext'
    obtain ⟨-, hbody⟩ := Lexer.quoted_of_next hahead hnext
    obtain ⟨-, hother⟩ := Lexer.quoted_of_next hother hnext'
    rw [List.append_cancel_right hbody, List.append_cancel_right hother]
  · intro hlast lexer position hnext
    exact Lexer.bare_of_next hlast hnext

/-- A backslash before an escaped quote stands for itself, and so does one at the end of a literal
without quotes. -/
theorem quoted_literals_correspond_backslash :
    let lexer := Lexer.ofText " \"\\\\\"x\"]"
    let other := Lexer.ofText "\"\\\\\"x\"=1"
    let bare := Lexer.ofText "x\\ y"
    (lexer.next.1 = .token ⟨.literal "\\\"x", 2⟩ ∧ lexer.next.2.ahead = [']']) ∧
    ("\\\"x".toList.getLast? ≠ some '\\' ∧ "\\\\\"x\"]".toList =
      Quoted.escape "\\\"x".toList ++ '"' :: lexer.next.2.ahead) ∧
    (∀ body, other.ahead = '"' :: (body ++ '"' :: other.next.2.ahead) →
      body = "\\\\\"x".toList) ∧
    IsBare "x\\".toList ∧
      ∃ gap, bare.ahead = List.replicate gap ' ' ++ ("x\\".toList ++ bare.next.2.ahead) := by
  intro lexer other bare
  have hlexer : lexer.next.1 = .token ⟨.literal "\\\"x", 2⟩ := by decide
  have hother : other.next.1 = .token ⟨.literal "\\\"x", 1⟩ := by decide
  obtain ⟨htaken, hwritten, hbodies, -⟩ := quoted_literals_correspond "\\\"x"
  refine ⟨htaken (by decide) lexer 1 [']'] rfl, hwritten lexer 1 2 _ rfl hlexer, ?_, ?_⟩
  · intro body hbody
    exact hbodies other lexer 0 1 1 2 body "\\\\\"x".toList hbody rfl hother hlexer
  · exact (quoted_literals_correspond "x\\").2.2.2 (by decide) bare 0 (by decide)

end JsonShorthand
