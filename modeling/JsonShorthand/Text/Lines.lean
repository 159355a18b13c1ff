namespace JsonShorthand.Text

def dropReturn (line : List Char) : List Char :=
  if line.getLast? = some '\r' then line.dropLast else line

/-- The lines of what follows `line` on the same line. A carriage return just before a line feed
belongs to the line end, and a text that ends in a line feed has no empty line after it. -/
def linesAfter (line : List Char) : List Char → List (List Char)
  | [] => if line = [] then [] else [line.reverse]
  | '\n' :: cs => dropReturn line.reverse :: linesAfter [] cs
  | c :: cs => linesAfter (c :: line) cs

def lines (cs : List Char) : List (List Char) := linesAfter [] cs

end JsonShorthand.Text
