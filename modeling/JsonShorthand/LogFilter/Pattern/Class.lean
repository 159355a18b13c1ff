import JsonShorthand.LogFilter.Pattern.Escape

namespace JsonShorthand.LogFilter.Pattern

/-- How deep things that stand side by side are nested. Only several of them are a level. -/
def nesting : List Nat → Nat
  | [] => 0
  | [only] => only
  | several => several.foldr max 0 + 1

structure Members where
  nesting : Nat
  /-- Where Unicode is switched off: the bytes beyond ASCII belong to the set. All of them do or
  none, since no member but a complement has any. -/
  beyond : Bool

def Members.simple : Members := ⟨0, false⟩

def Members.union (members : List Members) : Members :=
  ⟨Pattern.nesting (members.map (·.nesting)), members.any (·.beyond)⟩

inductive SetOperation where
  | intersection
  | difference
  | symmetricDifference

def SetOperation.holds : SetOperation → Bool → Bool → Bool
  | intersection, a, b => a && b
  | difference, a, b => a && !b
  | symmetricDifference, a, b => a != b

structure OpenClass where
  negated : Bool
  left : Option (SetOperation × Members)
  members : List Members

namespace OpenClass

def add (opened : OpenClass) (members : Members) : OpenClass :=
  { opened with members := members :: opened.members }

def set (opened : OpenClass) : Members :=
  let right := Members.union opened.members
  match opened.left with
  | none => right
  | some (operation, left) =>
    ⟨max left.nesting right.nesting + 1, operation.holds left.beyond right.beyond⟩

def operate (opened : OpenClass) (operation : SetOperation) : OpenClass :=
  { opened with left := some (operation, opened.set), members := [] }

def close (opened : OpenClass) : Members :=
  ⟨opened.set.nesting + 1, opened.set.beyond != opened.negated⟩

end OpenClass

def member? (flags : Flags) (cs : List Char) : Option (Option Nat × List Char) :=
  if flags.foldsUnicode then none
  else
    match cs with
    | [] => none
    | '\\' :: cs =>
      match escape? flags cs with
      | some (.char code, rest) | some (.byte code, rest) =>
        if flags.unicode ∨ code < 0x80 then some (some code, rest) else none
      | some (.kind negated, rest) => if flags.unicode ∨ negated then none else some (none, rest)
      | _ => none
    | c :: cs => if flags.unicode ∨ c.toNat < 0x80 then some (some c.toNat, cs) else none

def namedKinds : List String :=
  ["alnum", "alpha", "ascii", "blank", "cntrl", "digit", "graph", "lower", "print", "punct",
    "space", "upper", "word", "xdigit"]

def namedKind? : List Char → Option (Bool × List Char)
  | ':' :: cs =>
    let (negated, cs) := match cs with
      | '^' :: cs => (true, cs)
      | cs => (false, cs)
    match cs.dropWhile (· ≠ ':') with
    | ':' :: ']' :: rest =>
      if namedKinds.contains (.ofList (cs.takeWhile (· ≠ ':'))) then some (negated, rest) else none
    | _ => none
  | _ => none

def dashes (flags : Flags) (opened : OpenClass) : List Char → OpenClass × List Char
  | '-' :: cs => dashes flags (opened.add .simple) cs
  | c :: cs => if flags.verbose ∧ Text.isBlank c then dashes flags opened cs else (opened, c :: cs)
  | [] => (opened, [])

/-- Reads the head of a class, after its opening bracket: a caret, dashes, and a closing bracket if
it comes first of all members. -/
def openClass? (flags : Flags) (cs : List Char) : Option (OpenClass × List Char) :=
  let (negated, inner) := match flags.skip cs with
    | '^' :: cs => (true, flags.skip cs)
    | cs => (false, cs)
  let (opened, rest) := match inner with
    | ']' :: rest => ((OpenClass.mk negated none []).add .simple, rest)
    | _ => dashes flags ⟨negated, none, []⟩ inner
  if flags.foldsUnicode ∧ !opened.members.isEmpty then none else some (opened, rest)

inductive ClassProgress where
  | inside (opened : OpenClass) (outer : List OpenClass)
  | closed (members : Members)

def memberOrRange? (flags : Flags) (cs : List Char) : Option (List Char) := do
  let (low, rest) ← member? flags cs
  let ahead := flags.skip rest
  match ahead with
  | '-' :: above =>
    let above := flags.skip above
    if above.head? = some ']' ∨ above.head? = some '-' then some ahead
    else
      match low, ← member? flags above with
      | some low, (some high, rest) => if low ≤ high then some rest else none
      | _, _ => none
  | _ => some ahead

def classStep (flags : Flags) (opened : OpenClass) (outer : List OpenClass) (cs : List Char) :
    Option (ClassProgress × List Char) :=
  match flags.skip cs with
  | [] => none
  | ']' :: rest =>
    match outer with
    | [] => some (.closed opened.close, rest)
    | next :: outer => some (.inside (next.add opened.close) outer, rest)
  | '&' :: '&' :: rest => some (.inside (opened.operate .intersection) outer, rest)
  | '-' :: '-' :: rest => some (.inside (opened.operate .difference) outer, rest)
  | '~' :: '~' :: rest => some (.inside (opened.operate .symmetricDifference) outer, rest)
  | '[' :: rest =>
    match namedKind? rest with
    | some (negated, rest) =>
      if flags.foldsUnicode then none else some (.inside (opened.add ⟨0, negated⟩) outer, rest)
    | none => do
      let (inner, rest) ← openClass? flags rest
      some (.inside inner (opened :: outer), rest)
  | cs => do
    let rest ← memberOrRange? flags cs
    some (.inside (opened.add .simple) outer, rest)

def ClassProgress.finish? (flags : Flags) (progress : ClassProgress) (cs : List Char) :
    Option (Members × List Char) :=
  match progress with
  | closed members => some (members, cs)
  | inside opened outer =>
    match classStep flags opened outer cs with
    | none => none
    | some (next, rest) => if rest.length < cs.length then next.finish? flags rest else none
termination_by cs.length

/-- Reads a class after its opening bracket, and tells how deep it is nested. Where Unicode is
switched off it may not hold parts of characters. -/
def class? (flags : Flags) (cs : List Char) : Option (Nat × List Char) := do
  let (opened, rest) ← openClass? flags cs
  let (members, rest) ← (ClassProgress.inside opened []).finish? flags rest
  if !flags.unicode && members.beyond then none else some (members.nesting, rest)

end JsonShorthand.LogFilter.Pattern
