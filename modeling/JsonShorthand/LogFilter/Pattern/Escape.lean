import JsonShorthand.LogFilter.Pattern.Flags

namespace JsonShorthand.LogFilter.Pattern

inductive Escape where
  | char (code : Nat)
  | byte (code : Nat)
  | kind (negated : Bool)
  | wordBoundary
  | textBoundary

def hexDigit? (c : Char) : Option Nat :=
  if c.isDigit then some (c.toNat - '0'.toNat)
  else if 'a' ≤ c.toLower ∧ c.toLower ≤ 'f' then some (c.toLower.toNat - 'a'.toNat + 10)
  else none

/-- Reads as many hexadecimal digits as are expected; the number of those before is `code`. -/
def hexNumber? (flags : Flags) (code : Nat) : Nat → List Char → Option (Nat × List Char)
  | 0, cs => some (code, cs)
  | expected + 1, cs =>
    match flags.skip cs with
    | [] => none
    | c :: cs =>
      match hexDigit? c with
      | some digit => hexNumber? flags (16 * code + digit) expected cs
      | none => none

def hexChar? (flags : Flags) (count : Nat) (cs : List Char) : Option (Nat × List Char) :=
  (hexNumber? flags 0 count cs).filter fun (code, _) => code.isValidChar

def controls : List (Char × Nat) :=
  [('a', 0x07), ('f', 0x0C), ('t', 0x09), ('n', 0x0A), ('r', 0x0D), ('v', 0x0B)]

def escape? (flags : Flags) : List Char → Option (Escape × List Char)
  | [] => none
  | 'x' :: cs => (hexChar? flags 2 cs).map fun (code, rest) => (.byte code, rest)
  | 'u' :: cs => (hexChar? flags 4 cs).map fun (code, rest) => (.char code, rest)
  | 'U' :: cs => (hexChar? flags 8 cs).map fun (code, rest) => (.char code, rest)
  | c :: cs =>
    if "dsw".toList.contains c then some (.kind false, cs)
    else if "DSW".toList.contains c then some (.kind true, cs)
    else if "bB<>".toList.contains c then some (.wordBoundary, cs)
    else if "Az".toList.contains c then some (.textBoundary, cs)
    else
      match controls.lookup c with
      | some code => some (.char code, cs)
      | none => if c.toNat < 0x80 ∧ !c.isAlphanum then some (.char c.toNat, cs) else none

/-- Escapes that may stand outside a class. Kinds of characters are known within ASCII only, and
their complements would hold parts of characters. -/
def Escape.fits (flags : Flags) : Escape → Bool
  | char _ => !flags.foldsUnicode
  | byte code => if flags.unicode then !flags.ignoreCase else code < 0x80
  | kind negated => !flags.unicode && !negated
  | wordBoundary | textBoundary => true

end JsonShorthand.LogFilter.Pattern
