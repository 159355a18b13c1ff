import JsonShorthand.Binary64.Nearest

namespace JsonShorthand.Binary64

/-- Decimal grids are numbered from `10 ^ -345` upwards, below every digit that can matter. -/
def gridOffset : Nat := 345

/-- The two neighbours of a magnitude on the grid of the multiples of `10 ^ (grid - gridOffset)`;
of those that read back as the magnitude, the nearer. -/
def onGrid? (magnitude grid : Nat) : Option Decimal :=
  let n := units magnitude * Nat.pow 10 gridOffset
  let d := Nat.pow 2 1074 * Nat.pow 10 grid
  let q := n / d
  let r := n % d
  let below : Decimal := ⟨q, grid - gridOffset⟩
  let above : Decimal := ⟨q + 1, grid - gridOffset⟩
  let fits (x : Decimal) : Bool := magnitudeOfDecimal x = magnitude
  let nearer := if 2 * r < d ∨ (2 * r = d ∧ q % 2 = 0) then below else above
  if fits below && fits above then some nearer
  else if fits below then some below
  else if fits above then some above
  else none

def exactDecimal (magnitude : Nat) : Decimal := ⟨units magnitude * Nat.pow 5 1074, -1074⟩

/-- Seventeen digits tell any two numbers apart, so the exact value is never needed; it makes the
search total. -/
def shortestDecimal (magnitude : Nat) : Decimal :=
  let places := Decimal.digitCount (units magnitude * Nat.pow 10 gridOffset / Nat.pow 2 1074)
  if magnitude = 0 then ⟨0, 0⟩
  else
    ((List.range 17).findSome? fun i => onGrid? magnitude (places - (i + 1))).getD
      (exactDecimal magnitude)

end JsonShorthand.Binary64
