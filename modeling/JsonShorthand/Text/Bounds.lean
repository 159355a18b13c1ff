namespace JsonShorthand.Text

/-- A class of characters: the code points where it begins and where it ends, in turn. -/
abbrev Bounds := List Nat

def Bounds.contain (bounds : Bounds) (c : Char) : Bool :=
  (bounds.takeWhile (· ≤ c.toNat)).length % 2 = 1

end JsonShorthand.Text
