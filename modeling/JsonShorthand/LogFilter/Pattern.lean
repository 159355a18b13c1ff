import JsonShorthand.LogFilter.Pattern.Class
import JsonShorthand.Text.Alphanumeric

namespace JsonShorthand.LogFilter.Pattern

inductive Fault where
  | malformed
  | unicodeBoundary
  deriving DecidableEq

/-- A group that is not closed yet, or all of the pattern. -/
structure Group where
  flags : Flags
  alternatives : List Nat
  /-- How deep the parts of this alternative are nested, the last one first. Flags by themselves are
  a part (`none`), but cannot be repeated. -/
  parts : List (Option Nat)

namespace Group

def start (flags : Flags) : Group := ⟨flags, [], []⟩

def add (group : Group) (part : Option Nat) : Group := { group with parts := part :: group.parts }

def alternative (group : Group) : Nat := Pattern.nesting (group.parts.map (·.getD 0))

def nesting (group : Group) : Nat := Pattern.nesting (group.alternative :: group.alternatives)

def nextAlternative (group : Group) : Group :=
  { group with alternatives := group.alternative :: group.alternatives, parts := [] }

def repeat? (group : Group) : Option Group :=
  match group.parts with
  | some part :: parts => some { group with parts := some (part + 1) :: parts }
  | _ => none

end Group

structure Progress where
  group : Group
  outer : List Group
  names : List (List Char)
  hasUnicodeBoundary : Bool

namespace Progress

def start : Progress := ⟨.start .default, [], [], false⟩

def flags (progress : Progress) : Flags := progress.group.flags

def add (progress : Progress) (part : Nat) : Progress :=
  { progress with group := progress.group.add (some part) }

def enter (progress : Progress) (flags : Flags) : Progress :=
  { progress with group := .start flags, outer := progress.group :: progress.outer }

def leave? (progress : Progress) : Option Progress :=
  match progress.outer with
  | [] => none
  | group :: outer =>
    some { progress with group := group.add (some (progress.group.nesting + 1)), outer }

def name? (progress : Progress) (cs : List Char) : Option (Progress × List Char) :=
  match cs.takeWhile (· ≠ '>'), cs.dropWhile (· ≠ '>') with
  | c :: name, _ :: rest =>
    if (c = '_' ∨ Text.isAlphabetic c) ∧ (c :: name) ∉ progress.names ∧
        name.all (fun c => "_.[]".toList.contains c || Text.isAlphanumeric c) then
      some ({ progress.enter progress.flags with names := (c :: name) :: progress.names }, rest)
    else none
  | _, _ => none

/-- Reads the head of a group, after its opening parenthesis. Flags alone are no group: they hold to
the end of the group that they stand in. -/
def group? (progress : Progress) (cs : List Char) : Option (Progress × List Char) :=
  match progress.flags.skip cs with
  | '?' :: 'P' :: '<' :: rest | '?' :: '<' :: rest => progress.name? rest
  | '?' :: rest => do
    let head := rest.takeWhile fun c => c ≠ ':' ∧ c ≠ ')'
    let flags ← progress.flags.update? head
    match rest.drop head.length with
    | ':' :: rest => some (progress.enter flags, rest)
    | ')' :: rest =>
      if head = [] then none
      else some ({ progress with group := { progress.group.add none with flags } }, rest)
    | _ => none
  | rest => some (progress.enter progress.flags, rest)

def escaped? (progress : Progress) (cs : List Char) : Option (Progress × List Char) := do
  let (escape, rest) ← escape? progress.flags cs
  if !escape.fits progress.flags then none
  else
    match escape with
    | .wordBoundary =>
      let hasUnicodeBoundary := progress.hasUnicodeBoundary || progress.flags.unicode
      some ({ progress.add 0 with hasUnicodeBoundary }, rest)
    | _ => some (progress.add 0, rest)

/-- Reads the next part. A question mark just after a repetition belongs to it. -/
def step (progress : Progress) : List Char → Option (Progress × List Char)
  | [] => none
  | '(' :: cs => progress.group? cs
  | ')' :: cs => progress.leave?.map (·, cs)
  | '|' :: cs => some ({ progress with group := progress.group.nextAlternative }, cs)
  | '[' :: cs => (class? progress.flags cs).map fun (part, rest) => (progress.add part, rest)
  | '\\' :: cs => progress.escaped? cs
  | '{' :: _ => none
  | '.' :: cs => if progress.flags.unicode then some (progress.add 0, cs) else none
  | '^' :: cs | '$' :: cs => some (progress.add 0, cs)
  | c :: cs =>
    if c = '?' ∨ c = '*' ∨ c = '+' then
      let rest := if cs.head? = some '?' then cs.tail else cs
      progress.group.repeat?.map fun group => ({ progress with group }, rest)
    else if progress.flags.foldsUnicode then none
    else some (progress.add 0, cs)

def finish? (progress : Progress) (cs : List Char) : Option Progress :=
  match progress.flags.skip cs with
  | [] => if progress.outer.isEmpty then some progress else none
  | ahead =>
    match progress.step ahead with
    | none => none
    | some (next, rest) => if rest.length < cs.length then next.finish? rest else none
termination_by cs.length

end Progress

def nestingLimit : Nat := 250

/-- Reads all of a text as a pattern. What would need properties of characters outside ASCII is one
only where Unicode is switched off, and counted repetitions never are, since the brace that would
close one ends the field. -/
def fault? (cs : List Char) : Option Fault :=
  match Progress.start.finish? cs with
  | none => some .malformed
  | some progress =>
    if progress.group.nesting > nestingLimit then some .malformed
    else if progress.hasUnicodeBoundary then some .unicodeBoundary
    else none

end JsonShorthand.LogFilter.Pattern
