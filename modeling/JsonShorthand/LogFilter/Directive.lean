import JsonShorthand.Decimal
import JsonShorthand.LogFilter.Pattern

namespace JsonShorthand.LogFilter

inductive Fault where
  | malformed
  | unknownLevel
  | invalidValue (fault : Pattern.Fault)
  deriving DecidableEq

def Fault.message : Fault → String
  | malformed => "invalid filter directive"
  | unknownLevel =>
    "error parsing level filter: expected one of \"off\", \"error\", \"warn\", \"info\", " ++
      "\"debug\", \"trace\", or a number 0-5"
  | invalidValue .malformed => "invalid field filter: error building NFA"
  | invalidValue .unicodeBoundary =>
    "invalid field filter: unsupported regex feature for DFAs: cannot build DFAs for regexes " ++
      "with Unicode word boundaries; switch to ASCII word boundaries, or heuristically enable " ++
      "Unicode word boundaries or use a different regex engine"

def levelNames : List String := ["off", "error", "warn", "info", "debug", "trace"]

def isLevel (cs : List Char) : Bool :=
  levelNames.contains (.ofList (cs.map Char.toLower)) ||
    (natural? (if cs.head? = some '+' then cs.tail else cs)).any (· ≤ 5)

/-- A value is a number or a pattern; a truth value is also a pattern. -/
def valueFault? (cs : List Char) : Option Pattern.Fault :=
  if (Numeral.ofText? (splitSign cs).2).isSome then none else Pattern.fault? cs

/-- A field is a name, which can be any text, and the value after an equals sign. What follows a
second equals sign does not count. -/
def fieldFault? (cs : List Char) : Option Pattern.Fault :=
  match cs.dropWhile (· ≠ '=') with
  | [] => none
  | _ :: value => valueFault? (value.takeWhile (· ≠ '='))

/-- A directive from some place in it on. Where its parts end is seen in `ahead`, which has no
blanks around it. The parts themselves are cut at the same distances from `source`, which has them,
so that blanks before a directive shift its parts. -/
structure Rest where
  ahead : List Char
  source : List Char

namespace Rest

def ofText (text : List Char) : Rest :=
  let start := text.dropWhile Text.isBlank
  ⟨(start.reverse.dropWhile Text.isBlank).reverse, text⟩

def drop (rest : Rest) (count : Nat) : Rest := ⟨rest.ahead.drop count, rest.source.drop count⟩

def distance (rest : Rest) (p : Char → Bool) : Nat := (rest.ahead.takeWhile (!p ·)).length

def levelFault? (rest : Rest) : Option Fault :=
  if rest.source = [] ∨ isLevel rest.source then none else some .unknownLevel

def endFault? (rest : Rest) : Option Fault :=
  match rest.ahead with
  | [] => none
  | '=' :: _ => (rest.drop 1).levelFault?
  | _ => some .malformed

def fieldsFault? (rest : Rest) : Option Fault :=
  let size := rest.distance (· = '}')
  match rest.ahead.drop size with
  | [] => some .malformed
  | _ :: behind =>
    if size = 0 then some .malformed
    else
      match fieldFault? (rest.source.take size) with
      | some fault => some (.invalidValue fault)
      | none =>
        if behind.head? = some ']' then (rest.drop (size + 2)).endFault? else some .malformed

def spanFault? (rest : Rest) : Option Fault :=
  let behind := rest.drop (rest.distance fun c => c = ']' || c = '{')
  match behind.ahead with
  | '{' :: _ => (behind.drop 1).fieldsFault?
  | ']' :: _ => (behind.drop 1).endFault?
  | _ => some .malformed

/-- At the start of `target[span{field=value}]=level`, of which each part may be missing. A name
that is no level is a target. -/
def fault? (rest : Rest) : Option Fault :=
  match rest.ahead with
  | [] => some .malformed
  | '[' :: _ => (rest.drop 1).spanFault?
  | c :: _ =>
    if c = '-' ∨ c = ':' ∨ c = '_' ∨ Text.isAlphanumeric c then
      let behind := rest.drop (rest.distance fun c => c = '=' || c = '[')
      match behind.ahead with
      | '=' :: _ => (behind.drop 1).levelFault?
      | '[' :: _ => (behind.drop 1).spanFault?
      | _ => none
    else some .malformed

end Rest

def directiveFault? (directive : List Char) : Option Fault := (Rest.ofText directive).fault?

end JsonShorthand.LogFilter
