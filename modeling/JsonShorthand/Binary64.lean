namespace JsonShorthand

/-- A sign and a magnitude; the order of magnitudes is that of the absolute values. -/
structure Binary64 where
  negative : Bool
  magnitude : Nat
  magnitude_lt : magnitude < Nat.pow 2 63
  deriving DecidableEq

namespace Binary64

/-- The magnitude of infinity; larger ones are no numbers. -/
def infinityMagnitude : Nat := 2047 * Nat.pow 2 52

def isFinite (x : Binary64) : Bool := x.magnitude < infinityMagnitude

def isNaN (x : Binary64) : Bool := infinityMagnitude < x.magnitude

def ofBits (bits : UInt64) : Binary64 :=
  ⟨Nat.pow 2 63 ≤ bits.toNat, bits.toNat % Nat.pow 2 63, Nat.mod_lt _ (by decide)⟩

def toBits (x : Binary64) : UInt64 :=
  .ofNat ((if x.negative then Nat.pow 2 63 else 0) + x.magnitude)

/-- A finite magnitude denotes `significand * 2 ^ scale` units of `2 ^ -1074`. -/
def significand (magnitude : Nat) : Nat :=
  if magnitude < Nat.pow 2 52 then magnitude else Nat.pow 2 52 + magnitude % Nat.pow 2 52

def scale (magnitude : Nat) : Nat := magnitude / Nat.pow 2 52 - 1

def units (magnitude : Nat) : Nat := significand magnitude * Nat.pow 2 (scale magnitude)

/-- Equality of numbers: both zeros are the same number, and what is no number equals nothing. -/
def sameNumber (x y : Binary64) : Bool :=
  !x.isNaN && !y.isNaN && (x = y || (x.magnitude = 0 && y.magnitude = 0))

end Binary64

end JsonShorthand
