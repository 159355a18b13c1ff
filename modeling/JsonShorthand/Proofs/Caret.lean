import Mathlib.Data.List.DropRight
import JsonShorthand.Proofs.FaultPositions

namespace JsonShorthand

def caretLine (column : Nat) : List Char := List.replicate column ' ' ++ ['^']

theorem caretLine_inj {column other : Nat} (h : caretLine column = caretLine other) :
    column = other := by
  simpa [caretLine] using congrArg List.length h

theorem not_mem_caretLine (column : Nat) : '\n' ∉ caretLine column := by
  simp [caretLine]

def sinceLineStart (before : List Char) : List Char := before.rtakeWhile (· ≠ '\n')

def toLineEnd (after : List Char) : List Char := after.takeWhile (· ≠ '\n')

theorem length_sinceLineStart_eq_iff (before : List Char) :
    (sinceLineStart before).length = before.length ↔ '\n' ∉ before := by
  have hsuffix : sinceLineStart before <:+ before := List.rtakeWhile_suffix _ _
  have hself : sinceLineStart before = before ↔ '\n' ∉ before := by
    simp [sinceLineStart, List.rtakeWhile_eq_self_iff, List.forall_mem_ne']
  exact ⟨fun h => hself.1 (hsuffix.eq_of_length h), fun h => congrArg _ (hself.2 h)⟩

theorem toLineEnd_eq_iff (after : List Char) : toLineEnd after = after ↔ '\n' ∉ after := by
  simp [toLineEnd, List.takeWhile_eq_self_iff, List.forall_mem_ne']

theorem exists_below (after : List Char) :
    ∃ below, after = toLineEnd after ++ below ∧ (below = [] ∨ ∃ more, below = '\n' :: more) := by
  refine ⟨after.dropWhile (· ≠ '\n'), List.takeWhile_append_dropWhile.symm, ?_⟩
  cases hbelow : after.dropWhile (· ≠ '\n') with
  | nil => exact .inl rfl
  | cons c more =>
    have hhead := List.head?_dropWhile_not (· ≠ '\n') after
    rw [hbelow] at hhead
    obtain rfl : c = '\n' := by simpa using hhead
    exact .inr ⟨more, rfl⟩

/-- Behind a text, a line comes right after the first line of the text only if there is no other. -/
theorem append_newline_eq_iff {after line other : List Char} (hother : '\n' ∉ other) :
    after ++ '\n' :: line = toLineEnd after ++ '\n' :: other ↔ '\n' ∉ after ∧ line = other := by
  constructor
  · intro h
    obtain ⟨below, hsplit, hbelow⟩ := exists_below after
    have hlines :
        toLineEnd after ++ (below ++ '\n' :: line) = toLineEnd after ++ '\n' :: other := by
      rw [← List.append_assoc, ← hsplit, h]
    rcases hbelow with rfl | ⟨more, rfl⟩
    · rw [List.append_nil] at hsplit
      exact ⟨(toLineEnd_eq_iff after).1 hsplit.symm, by simpa using hlines⟩
    · have hmore : more ++ '\n' :: line = other := by simpa using hlines
      exact absurd (hmore ▸ List.mem_append_right _ List.mem_cons_self) hother
  · rintro ⟨hafter, rfl⟩
    rw [(toLineEnd_eq_iff after).2 hafter]

theorem append_inj_of_byteLength {before after first rest : List Char}
    (h : before ++ after = first ++ rest) (hlength : byteLength before = byteLength first) :
    before = first ∧ after = rest := by
  have hcolumn := columnAt?_append before after
  rw [h, hlength, columnAt?_append] at hcolumn
  exact List.append_inj h (Option.some.inj hcolumn).symm

namespace ParseError

def heading (error : ParseError) : List Char :=
  ("Parse error: " ++ error.fault.cause.message ++ "\n").toList

/-- The line of the caret, the last one that is displayed, comes right after the line of the text
with the byte, and as many spaces are on it as there are characters before the byte on that line. -/
def CaretUnderByte (error : ParseError) : Prop :=
  ∃ before after, error.input.toList = before ++ after ∧
    byteLength before = error.fault.position ∧
    error.display.toList = error.heading ++ (before ++ toLineEnd after) ++
      '\n' :: caretLine (sinceLineStart before).length

variable {input : String} {error : ParseError}

theorem Located.display_eq (h : error.Located input) :
    ∃ before after, input.toList = before ++ after ∧ byteLength before = error.fault.position ∧
      error.display.toList =
        error.heading ++ input.toList ++ '\n' :: caretLine before.length := by
  obtain ⟨before, after, hchars, hbefore, -, hdisplay, -⟩ := h.exists_append
  refine ⟨before, after, hchars, hbefore, ?_⟩
  rw [hdisplay]
  simp [heading, caretLine]

theorem Located.caretUnderByte_iff (h : error.Located input) :
    error.CaretUnderByte ↔ '\n' ∉ input.toList := by
  obtain ⟨before, after, hchars, hbefore, hlines⟩ := h.display_eq
  rw [hchars] at hlines
  have hunder : error.CaretUnderByte ↔ after ++ '\n' :: caretLine before.length =
      toLineEnd after ++ '\n' :: caretLine (sinceLineStart before).length := by
    constructor
    · rintro ⟨first, rest, hfirst, hposition, hshown⟩
      rw [h.input_eq, hchars] at hfirst
      obtain ⟨rfl, rfl⟩ := append_inj_of_byteLength hfirst (hbefore.trans hposition.symm)
      rw [hlines] at hshown
      simpa using hshown
    · intro hsame
      refine ⟨before, after, h.input_eq ▸ hchars, hbefore, ?_⟩
      rw [hlines]
      simpa using hsame
  rw [hunder, append_newline_eq_iff (not_mem_caretLine _), hchars, List.mem_append, not_or,
    ← length_sinceLineStart_eq_iff before]
  constructor
  · rintro ⟨hafter, hsame⟩
    exact ⟨(caretLine_inj hsame).symm, hafter⟩
  · rintro ⟨hsame, hafter⟩
    exact ⟨hafter, by rw [hsame]⟩

end ParseError

/-- Whatever the text, the caret is behind all of it, after a space for each character before the
byte. It comes right below that byte if and only if the text has no line end. -/
theorem caret_under_byte_iff {input : String} {error : ParseError}
    (h : readForest input = .error error ∨ readScalar input = .error error) :
    (∃ before after, input.toList = before ++ after ∧
      byteLength before = error.fault.position ∧
      error.display.toList =
        error.heading ++ input.toList ++ '\n' :: caretLine before.length) ∧
      (error.CaretUnderByte ↔ '\n' ∉ input.toList) := by
  have hlocated : error.Located input :=
    h.elim Forest.fits_reader.located_of_read Value.fits_scalarReader.located_of_read
  obtain ⟨before, after, hchars, hbefore, hlines⟩ := hlocated.display_eq
  exact ⟨⟨before, after, hchars, hbefore, hlines⟩, hlocated.caretUnderByte_iff⟩

theorem caret_under_byte_iff_multibyte :
    readForest "é=" = .error ⟨"é=", ⟨.unexpectedEnd, 3⟩⟩ ∧
      ParseError.display ⟨"é=", ⟨.unexpectedEnd, 3⟩⟩ =
        "Parse error: Unexpected end of input\né=\n  ^" ∧
      ParseError.CaretUnderByte ⟨"é=", ⟨.unexpectedEnd, 3⟩⟩ := by
  have hread : readForest "é=" = .error ⟨"é=", ⟨.unexpectedEnd, 3⟩⟩ := by cbv
  exact ⟨hread, by decide, (caret_under_byte_iff (.inl hread)).2.2 (by decide)⟩

/-- Two lines: the byte comes after one character of the second, the caret after five. -/
theorem caret_beside_byte :
    readForest "a=1\nb" = .error ⟨"a=1\nb", ⟨.unexpectedEnd, 5⟩⟩ ∧
      ParseError.display ⟨"a=1\nb", ⟨.unexpectedEnd, 5⟩⟩ =
        "Parse error: Unexpected end of input\na=1\nb\n     ^" ∧
      ¬ ParseError.CaretUnderByte ⟨"a=1\nb", ⟨.unexpectedEnd, 5⟩⟩ := by
  have hread : readForest "a=1\nb" = .error ⟨"a=1\nb", ⟨.unexpectedEnd, 5⟩⟩ := by cbv
  refine ⟨hread, by decide, fun hunder => ?_⟩
  have hline := (Forest.fits_reader.located_of_read hread).caretUnderByte_iff.1 hunder
  exact hline (by decide)

end JsonShorthand
