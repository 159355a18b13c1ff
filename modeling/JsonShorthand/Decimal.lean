namespace JsonShorthand

/-- The number `digits * 10 ^ exponent`. -/
structure Decimal where
  digits : Nat
  exponent : Int
  deriving DecidableEq

inductive Numeral where
  | decimal (number : Decimal)
  | infinity
  | notANumber
  deriving DecidableEq

def splitSign : List Char → Bool × List Char
  | '-' :: cs => (true, cs)
  | '+' :: cs => (false, cs)
  | cs => (false, cs)

def natural? (cs : List Char) : Option Nat :=
  if cs ≠ [] ∧ cs.all Char.isDigit then some (Nat.ofDigitChars 10 cs 0) else none

def integer? (cs : List Char) : Option Int :=
  let (negative, digits) := splitSign cs
  (natural? digits).map fun n => if negative then -n else n

namespace Decimal

def digitCount (n : Nat) : Nat := (Nat.toDigits 10 n).length

/-- Exponents beyond this one are cut off after the digit that brought them there. -/
def exponentLimit : Nat := Nat.pow 2 16

def exponentOfDigits (digits : List Char) : Nat :=
  digits.foldl (fun e c => if e < exponentLimit then 10 * e + (c.toNat - '0'.toNat) else e) 0

/-- What follows the digits of a number: nothing, or `e` and a signed exponent. -/
def exponent? : List Char → Option Int
  | [] => some 0
  | c :: cs =>
    let (negative, digits) := splitSign cs
    if (c = 'e' ∨ c = 'E') ∧ digits ≠ [] ∧ digits.all Char.isDigit then
      let size := exponentOfDigits digits
      some (if negative then -size else size)
    else none

def splitFraction : List Char → List Char × List Char
  | '.' :: cs => (cs.takeWhile Char.isDigit, cs.dropWhile Char.isDigit)
  | cs => ([], cs)

/-- A number without a sign: digits, a point among them or at either end, and an exponent. -/
def ofText? (cs : List Char) : Option Decimal :=
  let whole := cs.takeWhile Char.isDigit
  let (fraction, rest) := splitFraction (cs.dropWhile Char.isDigit)
  if whole ++ fraction = [] then none
  else
    (exponent? rest).map fun e =>
      ⟨Nat.ofDigitChars 10 (whole ++ fraction) 0, e - fraction.length⟩

end Decimal

def Numeral.ofText? (cs : List Char) : Option Numeral :=
  let lower := cs.map Char.toLower
  if lower = "inf".toList ∨ lower = "infinity".toList then some .infinity
  else if lower = "nan".toList then some .notANumber
  else (Decimal.ofText? cs).map .decimal

end JsonShorthand
