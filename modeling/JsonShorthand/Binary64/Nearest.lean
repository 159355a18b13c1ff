import JsonShorthand.Binary64
import JsonShorthand.Decimal

namespace JsonShorthand

/-- The natural number nearest to `n / d`, the even one of two that are equally near. -/
def roundDiv (n d : Nat) : Nat :=
  let q := n / d
  let r := n % d
  if 2 * r < d ∨ (2 * r = d ∧ q % 2 = 0) then q else q + 1

namespace Binary64

/-- The magnitude nearest to `n / d` units of `2 ^ -1074`. A significand that rounds up to `2 ^ 53`
carries into the exponent by itself. -/
def nearestMagnitude (n d : Nat) : Nat :=
  let q := n / d
  let scale := if q < Nat.pow 2 53 then 0 else q.log2 - 52
  min (scale * Nat.pow 2 52 + roundDiv n (d * Nat.pow 2 scale)) infinityMagnitude

/-- The magnitude nearest to a decimal number. A number of 310 or more places before the point is
beyond the largest one, and a number that begins after the 324th place is nearer to zero than to the
smallest. -/
def magnitudeOfDecimal (x : Decimal) : Nat :=
  let places := Decimal.digitCount x.digits + x.exponent
  if x.digits = 0 ∨ places ≤ -324 then 0
  else if 310 ≤ places then infinityMagnitude
  else
    match x.exponent with
    | .ofNat e => nearestMagnitude (x.digits * Nat.pow 10 e * Nat.pow 2 1074) 1
    | .negSucc e => nearestMagnitude (x.digits * Nat.pow 2 1074) (Nat.pow 10 (e + 1))

theorem nearestMagnitude_lt (n d : Nat) : nearestMagnitude n d < Nat.pow 2 63 :=
  Nat.lt_of_le_of_lt (Nat.min_le_right _ _) (by decide)

theorem magnitudeOfDecimal_lt (x : Decimal) : magnitudeOfDecimal x < Nat.pow 2 63 := by
  unfold magnitudeOfDecimal
  dsimp only
  split
  · decide
  · split
    · decide
    · split <;> exact nearestMagnitude_lt _ _

def nanMagnitude : Nat := infinityMagnitude + Nat.pow 2 51

def ofNumeral (negative : Bool) : Numeral → Binary64
  | .decimal x => ⟨negative, magnitudeOfDecimal x, magnitudeOfDecimal_lt x⟩
  | .infinity => ⟨negative, infinityMagnitude, by decide⟩
  | .notANumber => ⟨negative, nanMagnitude, by decide⟩

def ofText? (cs : List Char) : Option Binary64 :=
  let (negative, rest) := splitSign cs
  (Numeral.ofText? rest).map (ofNumeral negative)

end Binary64

end JsonShorthand
