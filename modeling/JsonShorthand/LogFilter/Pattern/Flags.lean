import JsonShorthand.Text.Blank

namespace JsonShorthand.LogFilter.Pattern

structure Flags where
  ignoreCase : Bool
  unicode : Bool
  verbose : Bool
  deriving DecidableEq

def dropIgnored (inComment : Bool) : List Char → List Char
  | [] => []
  | c :: cs =>
    if inComment then dropIgnored (c ≠ '\n') cs
    else if c = '#' then dropIgnored true cs
    else if Text.isBlank c then dropIgnored false cs
    else c :: cs

namespace Flags

def default : Flags := ⟨false, true, false⟩

/-- No character may stand where its other cases would have to be found. -/
def foldsUnicode (flags : Flags) : Bool := flags.ignoreCase && flags.unicode

def skip (flags : Flags) (cs : List Char) : List Char :=
  if flags.verbose then dropIgnored false cs else cs

/-- The flags in a group's head: letters to switch on, and letters after a dash to switch off. None
comes twice, and the dash has some after it. -/
def update? (flags : Flags) (head : List Char) : Option Flags :=
  let on := head.takeWhile (· ≠ '-')
  let off := (head.dropWhile (· ≠ '-')).tail
  let letters := on ++ off
  if letters.all ("imsUuRx".toList.contains ·) ∧ letters.Nodup ∧ head.getLast? ≠ some '-' then
    let after (letter : Char) (now : Bool) : Bool :=
      if letter ∈ on then true else if letter ∈ off then false else now
    some ⟨after 'i' flags.ignoreCase, after 'u' flags.unicode, after 'x' flags.verbose⟩
  else none

end Flags

end JsonShorthand.LogFilter.Pattern
