import DiscoveryGraph.Decimal.Layout
import DiscoveryGraph.Json.Reader

/-!
# Numbers in JSON

A number without fraction and exponent is an integer as long as it fits 64 bits. Any other number
is a double: up to 64 bits of its digits are taken, and multiplied or divided by the power of ten
that is left, so that the result may be one unit off the nearest double. Minus zero is a double.
-/

namespace DiscoveryGraph.Json

/-- A number that has been read. -/
inductive Number where
  | natural (n : Nat)
  | negative (n : Int)
  | double (x : Float)

/-- What a reader says that it found when it meets a number. -/
def Number.found : Number → Found
  | natural n => .integer n
  | negative n => .integer n
  | double x => .real (Decimal.Layout.compact.text (.ofBits x.toBits.toNat))

/-- The value of a decimal digit. -/
def digit? (b : UInt8) : Option Nat :=
  if 0x30 ≤ b && b ≤ 0x39 then some (b.toNat - 0x30) else none

/-- Whether an octet is a decimal digit. -/
def isDigit (b : UInt8) : Bool :=
  (digit? b).isSome

/-- The largest exponent of a power of ten that is a double. -/
def largestPower : Nat :=
  308

/-- The number ten to the given power, as a double. -/
def powerOfTen (n : Nat) : Float :=
  OfScientific.ofScientific 1 false n

/-- A double is divided by a power of ten, in steps of the largest power. -/
def scaleDown : Nat → Float → Nat → Float
  | 0, x, _ => x
  | fuel + 1, x, power =>
    if power ≤ largestPower then x / powerOfTen power
    else if x == 0 then x
    else scaleDown fuel (x / powerOfTen largestPower) (power - largestPower)

/-- A double is multiplied by a power of ten, or divided by it if the power is negative. Nothing
comes of it when the result is too large. -/
def scaled? (x : Float) (power : Int) : Option Float :=
  if power < 0 then some (scaleDown (power.natAbs + 1) x power.natAbs)
  else if power.toNat ≤ largestPower then
    let y := x * powerOfTen power.toNat
    if y.isInf then none else some y
  else if x == 0 then some x
  else none

namespace Reader

/-- The digits that come next, and how many there are. The count is what is wanted of digits that
are beyond the precision. -/
def skipDigits : Reader Nat := do
  let c ← get
  let count := (c.rest.takeWhile isDigit).length
  set ({ index := c.index + count, rest := c.rest.dropWhile isDigit } : Cursor)
  return count

/-- Digits are appended to a number as long as it fits 64 bits. The result tells how many digits
were appended. -/
def digits : Nat → Nat → Nat → Reader (Nat × Nat)
  | 0, n, count => return (n, count)
  | fuel + 1, n, count => do
    match (← peek).bind digit? with
    | none => return (n, count)
    | some d =>
      if 1 <<< 64 ≤ n * 10 + d then return (n, count)
      else do
        advance
        digits fuel (n * 10 + d) (count + 1)

/-- The digits of an exponent. One that is too large counts as `2 ^ 31`. -/
def exponentDigits : Nat → Nat → Reader Nat
  | 0, n => return n
  | fuel + 1, n => do
    match (← peek).bind digit? with
    | none => return n
    | some d => do
      advance
      if 1 <<< 31 ≤ n * 10 + d then return 1 <<< 31 else exponentDigits fuel (n * 10 + d)

/-- The number `n * 10 ^ power`, with the given sign. -/
def double (positive : Bool) (n : Nat) (power : Int) : Reader Number := do
  match scaled? (UInt64.ofNat n).toFloat power with
  | some x => return .double (if positive then x else -x)
  | none => failHere .numberOutOfRange

/-- Whether the exponent counts upwards. -/
def exponentSign : Reader Bool := do
  match ← peek with
  | some 0x2B => do
    advance
    return true
  | some 0x2D => do
    advance
    return false
  | _ => return true

/-- The exponent of a number, from the letter on. -/
def exponent (positive : Bool) (n : Nat) (power : Int) : Reader Number := do
  advance
  let upwards ← exponentSign
  match ← next with
  | none => failHere .endOfValue
  | some b =>
    match digit? b with
    | none => failHere .badNumber
    | some d => do
      let size ← exponentDigits (← allowance) d
      if size < 1 <<< 31 then
        double positive n (if upwards then power + size else power - size)
      else if n ≠ 0 && upwards then failHere .numberOutOfRange
      else do
        discard skipDigits
        return .double (if positive then 0.0 else -0.0)

/-- What follows the digits of a number that is a double. -/
def afterDigits (positive : Bool) (n : Nat) (power : Int) : Reader Number := do
  match ← peek with
  | some 0x65 | some 0x45 => exponent positive n power
  | _ => double positive n power

/-- The fraction of a number, from the point on. Digits beyond the precision are dropped. -/
def fraction (positive : Bool) (n : Nat) (power : Int) : Reader Number := do
  advance
  let (n, count) ← digits (← allowance) n 0
  match (← peek).map isDigit with
  | some true => do
    discard skipDigits
    afterDigits positive n (power - count)
  | found =>
    if count = 0 then
      match found with
      | none => failAhead .endOfValue
      | some _ => failAhead .badNumber
    else afterDigits positive n (power - count)

/-- What follows the digits before the point. -/
def afterInteger (positive : Bool) (n : Nat) : Reader Number := do
  match ← peek with
  | some 0x2E => fraction positive n 0
  | some 0x65 | some 0x45 => exponent positive n 0
  | _ =>
    return if positive then .natural n
      else if n = 0 then .double (-0.0)
      else if n ≤ 1 <<< 63 then .negative (-n)
      else .double (-(UInt64.ofNat n).toFloat)

/-- What follows the digits before the point when they are too many for 64 bits. -/
def afterLongInteger (positive : Bool) (n : Nat) : Reader Number := do
  let power ← skipDigits
  match ← peek with
  | some 0x2E => fraction positive n power
  | _ => afterDigits positive n power

/-- A number whose sign has been read. -/
def number (positive : Bool) : Reader Number := do
  match ← next with
  | none => failHere .endOfValue
  | some b =>
    match digit? b with
    | none => failHere .badNumber
    | some 0 =>
      if ((← peek).map isDigit) = some true then failAhead .badNumber
      else afterInteger positive 0
    | some d => do
      let (n, _) ← digits (← allowance) d 0
      if ((← peek).map isDigit) = some true then afterLongInteger positive n
      else afterInteger positive n

end Reader

end DiscoveryGraph.Json
