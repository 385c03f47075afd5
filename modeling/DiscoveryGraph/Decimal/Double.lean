/-!
# Double-precision numbers

A finite number of this format is an integer times a power of two. The module takes the bits apart,
and widens the two smaller formats, each of which is contained in the larger one.
-/

namespace DiscoveryGraph.Decimal

/-- The size of a finite number: `mantissa * 2 ^ exponent`. -/
structure Magnitude where
  mantissa : Nat
  exponent : Int
  closeBelow : Bool
deriving DecidableEq

/-- What the bits of a number say. -/
inductive Double where
  | nan
  | infinite (negative : Bool)
  | finite (negative : Bool) (size : Magnitude)
deriving DecidableEq

namespace Double

/-- The number that 64 bits stand for: a sign, 11 bits of exponent, 52 bits of fraction. -/
def ofBits (bits : Nat) : Double :=
  let negative := (bits >>> 63) % 2 = 1
  let exponent : Nat := (bits >>> 52) % (1 <<< 11)
  let fraction := bits % (1 <<< 52)
  if exponent = 2047 then (if fraction = 0 then infinite negative else nan)
  else if exponent = 0 then finite negative ⟨fraction, -1074, false⟩
  else finite negative
    ⟨fraction + (1 <<< 52), (exponent : Int) - 1075, fraction = 0 && exponent ≠ 1⟩

/-- The same number with 53 bits of mantissa, as every wider format has it. -/
def normalized (mantissa : Nat) (exponent : Int) : Magnitude :=
  if mantissa = 0 then ⟨0, -1074, false⟩
  else
    let shift := 52 - mantissa.log2
    ⟨mantissa <<< shift, exponent - shift, mantissa <<< shift = 1 <<< 52⟩

/-- The number that the bits of a smaller format stand for. The format has a sign, `width` bits
of exponent and `places` bits of fraction. -/
def ofNarrow (width places bits : Nat) : Double :=
  let negative := (bits >>> (width + places)) % 2 = 1
  let exponent : Nat := (bits >>> places) % (1 <<< width)
  let fraction := bits % (1 <<< places)
  let bias := (1 <<< (width - 1)) - 1 + places
  if exponent = (1 <<< width) - 1 then (if fraction = 0 then infinite negative else nan)
  else if exponent = 0 then finite negative (normalized fraction (1 - (bias : Int)))
  else finite negative (normalized (fraction + (1 <<< places)) ((exponent : Int) - bias))

/-- The number that 16 bits stand for. -/
def ofHalfBits (bits : Nat) : Double :=
  ofNarrow 5 10 bits

/-- The number that 32 bits stand for. -/
def ofSingleBits (bits : Nat) : Double :=
  ofNarrow 8 23 bits

end Double

end DiscoveryGraph.Decimal
