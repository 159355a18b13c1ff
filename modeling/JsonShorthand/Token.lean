namespace JsonShorthand

inductive Symbol where
  | openBrace
  | closeBrace
  | openBracket
  | closeBracket
  | dot
  | assign
  | literal (text : String)
  | raw (text : String)
  | var (name : String)
  deriving DecidableEq

/-- A symbol and the byte offset of its text; the offset of a quoted literal, a raw literal or a
variable lies just past the character that introduces it. -/
structure Token where
  symbol : Symbol
  position : Nat
  deriving DecidableEq

namespace Symbol

def text : Symbol → String
  | openBrace => "\x7b"
  | closeBrace => "\x7d"
  | openBracket => "["
  | closeBracket => "]"
  | dot => "."
  | assign => "="
  | literal text => text
  | raw text => text
  | var name => name

def describe : Option Symbol → String
  | some openBrace => "`\x7b`"
  | some closeBrace => "`\x7d`"
  | some openBracket => "`[`"
  | some closeBracket => "`]`"
  | some dot => "`.`"
  | some assign => "`=`"
  | some (literal _) => "literal"
  | some (raw _) => "raw literal"
  | some (var _) => "variable"
  | none => "end of input"

end Symbol

end JsonShorthand
