namespace JsonShorthand.Text

/-- The code points of white space outside the ranges U+0009 to U+000D and U+2000 to U+200A. -/
def blanks : List Nat :=
  [0x20, 0x85, 0xA0, 0x1680, 0x2028, 0x2029, 0x202F, 0x205F, 0x3000]

def isBlank (c : Char) : Bool :=
  (0x09 ≤ c.toNat && c.toNat ≤ 0x0D) || (0x2000 ≤ c.toNat && c.toNat ≤ 0x200A) ||
    blanks.contains c.toNat

end JsonShorthand.Text
