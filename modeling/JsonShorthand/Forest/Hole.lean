import JsonShorthand.Generator

namespace JsonShorthand

/-- A place that waits for one generator: `segment` is the field of an object that has no other.
Lists of what came before have the latest first. -/
inductive Hole where
  | group (earlier : List Generator)
  | field (fields : Fields Generator none) (name : String)
  | member (fields : Fields Generator none) (name : String) (outer : Hole)
  | segment (name : String) (outer : Hole)
  | element (earlier : List Generator) (outer : Hole)

/-- Braces, brackets and the tails of fields may be open this many at a time. -/
def nestingLimit : Nat := 128

def Hole.depth : Hole → Nat
  | group _ => 0
  | field _ _ => 1
  -- the braces of the object, and the tail of the field
  | member _ _ outer => outer.depth + 2
  | segment _ outer => outer.depth + 1
  | element _ outer => outer.depth + 1

end JsonShorthand
