import DiscoveryGraph.Bytes
import DiscoveryGraph.Decimal.Layout
import DiscoveryGraph.Mismatch

/-!
# Heads of CBOR items

Every item begins with a head: a major type together with an argument, which is a number, a length
or a simple value. A length may be left open; the content then lasts until a break.

* `write` writes a head in its shortest form, and `shortestWidth` tells how long that form is.
-/

namespace DiscoveryGraph.Cbor

/-- The head of an item. -/
inductive Head where
  | positive (n : Nat)
  | negative (n : Nat)
  | bytes (length : Option Nat)
  | text (length : Option Nat)
  | array (length : Option Nat)
  | map (length : Option Nat)
  | tag (n : Nat)
  | simple (n : Nat)
  | float (value : Decimal.Double)
  | stop
deriving DecidableEq

namespace Head

/-- The simple value for false. -/
@[match_pattern] abbrev falseValue : Nat := 20

/-- The simple value for true. -/
@[match_pattern] abbrev trueValue : Nat := 21

/-- The simple value for null. -/
@[match_pattern] abbrev nullValue : Nat := 22

/-- The simple value for undefined. -/
@[match_pattern] abbrev undefinedValue : Nat := 23

/-- The tag of a non-negative number written as a string of octets. -/
@[match_pattern] abbrev positiveBignum : Nat := 2

/-- The tag of a negative number written as a string of octets. -/
@[match_pattern] abbrev negativeBignum : Nat := 3

/-- How many octets the shortest head with this argument has. -/
def widthOf (argument : Nat) : Nat :=
  if argument < 24 then 1
  else if argument < 0x100 then 2
  else if argument < 0x10000 then 3
  else if argument < 0x100000000 then 5
  else 9

/-- How many octets the shortest form of a string's head has. -/
def shortestWidth : Head → Nat
  | bytes (some n) | text (some n) => widthOf n
  | _ => 1

/-- The shortest head of a major type with an argument. -/
def write (major argument : Nat) : Bytes :=
  if argument < 24 then [UInt8.ofNat (major * 32 + argument)]
  else if argument < 0x100 then UInt8.ofNat (major * 32 + 24) :: Bytes.bigEndian 1 argument
  else if argument < 0x10000 then UInt8.ofNat (major * 32 + 25) :: Bytes.bigEndian 2 argument
  else if argument < 0x100000000 then UInt8.ofNat (major * 32 + 26) :: Bytes.bigEndian 4 argument
  else UInt8.ofNat (major * 32 + 27) :: Bytes.bigEndian 8 argument

/-- The integer of 64 bits, in two's complement, that the number `-1 - n` wraps to. -/
def wrapped (n : Nat) : Int :=
  Int.bmod (-1 - n) (1 <<< 64)

/-- What a reader says that it found when it meets an item with this head. -/
def found : Head → Found
  | positive n => .integer n
  | negative n => .integer (wrapped n)
  | bytes _ => .other "bytes"
  | text _ => .other "string"
  | array _ => .list
  | map _ => .map
  | tag _ => .other "tag"
  | simple falseValue => .boolean false
  | simple trueValue => .boolean true
  | simple nullValue => .other "null"
  | simple undefinedValue => .other "undefined"
  | simple _ => .other "simple"
  | float value => .real (Decimal.Layout.full.text value)
  | stop => .other "break"

/-- The head that a major type and an argument of `width` octets make. A missing argument leaves
the length open, or is a break; numbers and tags cannot do without. -/
def make? (major : Nat) (argument : Option Nat) (width : Nat) : Option Head :=
  match major, argument with
  | 0, some n => some (positive n)
  | 1, some n => some (negative n)
  | 2, length => some (bytes length)
  | 3, length => some (text length)
  | 4, length => some (array length)
  | 5, length => some (map length)
  | 6, some n => some (tag n)
  | 7, none => some stop
  | 7, some n => some <|
    match width with
    | 2 => float (.ofHalfBits n)
    | 4 => float (.ofSingleBits n)
    | 8 => float (.ofBits n)
    | _ => simple n
  | _, _ => none

end Head

end DiscoveryGraph.Cbor
