import JsonShorthand.Forest

namespace JsonShorthand.Grammar

mutual

inductive Term where
  | literal (text : String)
  | var (name : String)
  | raw (text : String)
  | group (group : Group)

inductive Group where
  | object (members : Members)
  | array (elements : Elements)

inductive Tail where
  | assign (value : Term)
  | path (name : String) (tail : Tail)

inductive Members where
  | nil
  | cons (name : String) (tail : Tail) (rest : Members)

inductive Elements where
  | nil
  | term (value : Term) (rest : Elements)
  | field (name : String) (tail : Tail) (rest : Elements)

end

/-- Derivation trees of the grammar, apart from any reader:

```text
text    := group group* | members
group   := { members } | [ elements ]
members := (LITERAL tail)*
tail    := = term | . LITERAL tail
term    := LITERAL | VARIABLE | RAW | group
element := term | LITERAL tail
```
-/
inductive Text where
  | groups (first : Group) (rest : List Group)
  | fields (members : Members)

mutual

def Term.symbols : Term → List Symbol
  | .literal text => [.literal text]
  | .var name => [.var name]
  | .raw text => [.raw text]
  | .group group => group.symbols

def Group.symbols : Group → List Symbol
  | .object members => .openBrace :: (members.symbols ++ [.closeBrace])
  | .array elements => .openBracket :: (elements.symbols ++ [.closeBracket])

def Tail.symbols : Tail → List Symbol
  | .assign value => .assign :: value.symbols
  | .path name tail => .dot :: .literal name :: tail.symbols

def Members.symbols : Members → List Symbol
  | .nil => []
  | .cons name tail rest => .literal name :: (tail.symbols ++ rest.symbols)

def Elements.symbols : Elements → List Symbol
  | .nil => []
  | .term value rest => value.symbols ++ rest.symbols
  | .field name tail rest => .literal name :: (tail.symbols ++ rest.symbols)

end

def Text.symbols : Text → List Symbol
  | .groups first rest => first.symbols ++ rest.flatMap Group.symbols
  | .fields members => members.symbols

theorem Tail.head?_symbols_append (tail : Tail) (rest : List Symbol) :
    (tail.symbols ++ rest).head? = some .assign ∨ (tail.symbols ++ rest).head? = some .dot := by
  cases tail with
  | assign value => exact .inl rfl
  | path name tail => exact .inr rfl

theorem Elements.eq_nil_or_head?_ne (elements : Elements) (rest : List Symbol) :
    elements = .nil ∨ ∀ symbol ∈ [.closeBracket, .assign, .dot],
      (elements.symbols ++ rest).head? ≠ some symbol := by
  cases elements with
  | nil => exact .inl rfl
  | field name tail more => exact .inr (by simp [Elements.symbols])
  | term value more =>
    right
    cases value with
    | group group => cases group <;> simp [Elements.symbols, Term.symbols, Group.symbols]
    | _ => simp [Elements.symbols, Term.symbols]

/-- Elements do not begin like a tail, so what follows a literal tells whether it is a name. -/
theorem Elements.head?_symbols_append_ne (elements : Elements) (rest : List Symbol) :
    (elements.symbols ++ .closeBracket :: rest).head? ≠ some .assign ∧
      (elements.symbols ++ .closeBracket :: rest).head? ≠ some .dot := by
  rcases elements.eq_nil_or_head?_ne (.closeBracket :: rest) with rfl | hne
  · simp [Elements.symbols]
  · exact ⟨hne .assign (by simp), hne .dot (by simp)⟩

theorem Elements.eq_nil_of_head? {elements : Elements} {rest : List Symbol}
    (h : (elements.symbols ++ rest).head? = some .closeBracket) : elements = .nil :=
  (elements.eq_nil_or_head?_ne rest).resolve_right fun hne => hne .closeBracket (by simp) h

mutual

def Term.levels : Term → Nat
  | .group group => group.levels
  | _ => 0

def Group.levels : Group → Nat
  | .object members => members.levels + 1
  | .array elements => elements.levels + 1

/-- A tail is a level while its value or the rest of its path is read. -/
def Tail.levels : Tail → Nat
  | .assign value => value.levels + 1
  | .path _ tail => tail.levels + 1

def Members.levels : Members → Nat
  | .nil => 0
  | .cons _ tail rest => max tail.levels rest.levels

def Elements.levels : Elements → Nat
  | .nil => 0
  | .term value rest => max value.levels rest.levels
  | .field _ tail rest => max tail.levels rest.levels

end

theorem Tail.levels_pos (tail : Tail) : 0 < tail.levels := by
  cases tail <;> simp [Tail.levels]

def levelsOfGroups (groups : List Group) : Nat := (groups.map Group.levels).foldr max 0

/-- The largest number of levels that are open at one place of a text. -/
def Text.levels : Text → Nat
  | .groups first rest => levelsOfGroups (first :: rest)
  | .fields members => members.levels

mutual

/-- A literal is a string whatever it looks like; a raw literal is what it denotes, if anything. -/
def Term.denote : Term → Generator
  | .literal text => .value (.string text)
  | .var name => .var name
  | .raw text => .value ((Value.ofRaw? text).getD .null)
  | .group group => group.denote

def Group.denote : Group → Generator
  | .object members => .object (Fields.addList .nil members.entries)
  | .array elements => .array elements.denote

def Tail.denote : Tail → Generator
  | .assign value => value.denote
  | .path name tail => .single name tail.denote

/-- The fields that are added one by one, in their order. -/
def Members.entries : Members → List (String × Generator)
  | .nil => []
  | .cons name tail rest => (name, tail.denote) :: rest.entries

def Elements.denote : Elements → List Generator
  | .nil => []
  | .term value rest => value.denote :: rest.denote
  | .field name tail rest => .single name tail.denote :: rest.denote

end

def Text.denote : Text → Forest
  | .groups first rest => (first :: rest).map Group.denote
  | .fields members => [.object (Fields.addList .nil members.entries)]

def RawAccepted (symbols : List Symbol) : Prop :=
  ∀ text, .raw text ∈ symbols → (Value.ofRaw? text).isSome

/-- A text that a forest can be read from: its raw literals denote something and its levels stay
within a limit. -/
structure Derives (limit : Nat) (symbols : List Symbol) (text : Text) : Prop where
  symbols_eq : text.symbols = symbols
  accepted : RawAccepted symbols
  levels_le : text.levels ≤ limit

end JsonShorthand.Grammar
