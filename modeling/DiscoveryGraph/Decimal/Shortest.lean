import DiscoveryGraph.Decimal.Double

/-!
# The fewest digits that read back

A double-precision number is written with the fewest decimal digits that are read back as the same
number, and among the decimals with so few digits with the nearest one.

The reals that are read back as a given number form an interval around it, whose ends lie halfway
to the neighbours and belong to it when the mantissa is even. The coarsest decimal grid with a
point in that interval is found by trying grids in turn. On each grid only the two points next to
the number matter: if any point is in the interval, so is one of these.
-/

namespace DiscoveryGraph.Decimal

/-- What to do when the two neighbours on the grid are equally near. -/
inductive Tie where
  | even
  | up
deriving DecidableEq

/-- The number `digits * 10 ^ exponent`. -/
structure Numeral where
  digits : Nat
  exponent : Int
deriving DecidableEq

namespace Magnitude

/-- The number times `2 ^ 2`, as a fraction with the given power of ten in the denominator: numbers
on the grid of that power become integers. The first part is a quarter of a unit in the last
binary place. -/
def scale (size : Magnitude) (power : Int) : Nat × Nat :=
  let two := size.exponent - 2
  (Nat.pow 10 (-power).toNat <<< two.toNat, Nat.pow 10 power.toNat <<< (-two).toNat)

/-- The grid point of the given power of ten that reads back as the number and is nearest to it,
if there is one. -/
def onGrid? (size : Magnitude) (tie : Tie) (power : Int) : Option Numeral :=
  let (unit, one) := size.scale power
  let value := 4 * size.mantissa * unit
  let low := (4 * size.mantissa - if size.closeBelow then 1 else 2) * unit
  let high := (4 * size.mantissa + 2) * unit
  let closed := size.mantissa % 2 = 0
  let below := value / one
  let fitsBelow := if closed then low ≤ below * one else low < below * one
  let fitsAbove := if closed then (below + 1) * one ≤ high else (below + 1) * one < high
  let rest := value % one
  if fitsBelow && fitsAbove then
    if 2 * rest < one then some ⟨below, power⟩
    else if one < 2 * rest then some ⟨below + 1, power⟩
    else match tie with
      | .even => some ⟨if below % 2 = 0 then below else below + 1, power⟩
      | .up => some ⟨below + 1, power⟩
  else if fitsBelow then some ⟨below, power⟩
  else if fitsAbove then some ⟨below + 1, power⟩
  else none

/-- The shortest decimal that reads back as the number. Grids are tried from above the largest
number down to below the smallest one. -/
def shortest (size : Magnitude) (tie : Tie) : Numeral :=
  if size.mantissa = 0 then ⟨0, 0⟩
  else ((List.range 660).findSome? fun (step : Nat) => size.onGrid? tie (320 - step)).getD ⟨0, 0⟩

end Magnitude

end DiscoveryGraph.Decimal
