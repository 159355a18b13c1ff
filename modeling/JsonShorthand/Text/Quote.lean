import JsonShorthand.Text.Unprintable

namespace JsonShorthand.Text

def showChar (c : Char) : List Char :=
  match c with
  | '"' => ['\\', '"']
  | '\\' => ['\\', '\\']
  | '\x00' => ['\\', '0']
  | '\t' => ['\\', 't']
  | '\n' => ['\\', 'n']
  | '\r' => ['\\', 'r']
  | _ => if isUnprintable c then ['\\', 'u', '{'] ++ Nat.toDigits 16 c.toNat ++ ['}'] else [c]

def quote (text : String) : String :=
  .ofList ('"' :: text.toList.flatMap showChar ++ ['"'])

end JsonShorthand.Text
