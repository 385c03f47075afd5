import DiscoveryGraph.Decimal.Shortest

/-!
# Layouts of decimal numbers

Where the point stands, when an exponent is written, and what non-finite numbers are called. A
number always shows a fraction or an exponent, so that it cannot be taken for an integer.
-/

namespace DiscoveryGraph.Decimal

/-- How numbers are laid out. -/
structure Layout where
  /-- The least number of places before the point, where fewer than none means zeros behind it,
  for which no exponent is written. Without a bound there never is one. -/
  least : Option Int
  most : Option Int
  tie : Tie

namespace Layout

/-- All digits are written out. Of two equally near decimals the larger one is taken. -/
def full : Layout :=
  { least := none, most := none, tie := .up }

/-- An exponent is written for numbers of more than 16 places and for those below `1e-5`. Of two
equally near decimals the one with an even last digit is taken. -/
def compact : Layout :=
  { least := some (-4), most := some 16, tie := .even }

/-- Whether a number with so many places before the point is written without an exponent. -/
def writesOut (layout : Layout) (places : Int) : Bool :=
  layout.least.all (· ≤ places) && layout.most.all (places ≤ ·)

/-- A decimal without sign. -/
def unsigned (layout : Layout) (d : Numeral) : String :=
  let digits := (toString d.digits).toList
  let places := (digits.length : Int) + d.exponent
  if d.digits = 0 then "0.0"
  else if layout.writesOut places then
    String.ofList <|
      if 0 ≤ d.exponent then digits ++ List.replicate d.exponent.toNat '0' ++ ['.', '0']
      else if 0 < places then
        digits.take places.toNat ++ '.' :: digits.drop places.toNat
      else '0' :: '.' :: List.replicate (-places).toNat '0' ++ digits
  else
    let fraction := if digits.length = 1 then [] else '.' :: digits.drop 1
    String.ofList (digits.take 1 ++ fraction) ++ s!"e{places - 1}"

/-- A number. -/
def text (layout : Layout) : Double → String
  | .nan => "NaN"
  | .infinite negative => if negative then "-inf" else "inf"
  | .finite negative size =>
    (if negative then "-" else "") ++ layout.unsigned (size.shortest layout.tie)

end Layout

end DiscoveryGraph.Decimal
