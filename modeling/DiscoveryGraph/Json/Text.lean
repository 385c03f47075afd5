import DiscoveryGraph.Json.Reader

/-!
# Strings in JSON

A string stands for octets: most stand for themselves, and escapes stand for the UTF-8 octets of
a code point. Where text is wanted, control characters are refused, surrogates must come in pairs,
and the octets must be UTF-8. Where octets are wanted, none of this is asked for, and a surrogate
that stands alone gives the three octets that the UTF-8 scheme assigns to its number.
-/

namespace DiscoveryGraph.Json

/-- What a string is read for. -/
inductive TextUse where
  | text
  | octets
deriving DecidableEq

/-- The value of a hexadecimal digit of either case. -/
def hexValue? (b : UInt8) : Option Nat :=
  if 0x30 ≤ b && b ≤ 0x39 then some (b.toNat - 0x30)
  else if 0x61 ≤ b && b ≤ 0x66 then some (b.toNat - 0x57)
  else if 0x41 ≤ b && b ≤ 0x46 then some (b.toNat - 0x37)
  else none

/-- The number that four hexadecimal digits write. -/
def hexValues? (a b c d : UInt8) : Option Nat := do
  return (((← hexValue? a) * 16 + (← hexValue? b)) * 16 + (← hexValue? c)) * 16 + (← hexValue? d)

/-- The octets that the UTF-8 scheme assigns to a number below `2 ^ 21`, surrogates included. -/
def schemeOctets (n : Nat) : Bytes :=
  if n < 0x80 then [UInt8.ofNat n]
  else if n < 0x800 then [UInt8.ofNat (0xC0 + n / 0x40), UInt8.ofNat (0x80 + n % 0x40)]
  else if n < 0x10000 then
    [UInt8.ofNat (0xE0 + n / 0x1000), UInt8.ofNat (0x80 + n / 0x40 % 0x40),
      UInt8.ofNat (0x80 + n % 0x40)]
  else
    [UInt8.ofNat (0xF0 + n / 0x40000), UInt8.ofNat (0x80 + n / 0x1000 % 0x40),
      UInt8.ofNat (0x80 + n / 0x40 % 0x40), UInt8.ofNat (0x80 + n % 0x40)]

/-- Whether a number is the first half of a surrogate pair. -/
def isLeading (n : Nat) : Bool :=
  0xD800 ≤ n && n ≤ 0xDBFF

/-- Whether a number is the second half of a surrogate pair. -/
def isTrailing (n : Nat) : Bool :=
  0xDC00 ≤ n && n ≤ 0xDFFF

/-- The code point of a surrogate pair. -/
def paired (leading trailing : Nat) : Nat :=
  (leading - 0xD800) * 0x400 + (trailing - 0xDC00) + 0x10000

/-- The octet that a one-letter escape stands for. -/
def shortEscape? : UInt8 → Option UInt8
  | 0x22 => some 0x22
  | 0x5C => some 0x5C
  | 0x2F => some 0x2F
  | 0x62 => some 0x08
  | 0x66 => some 0x0C
  | 0x6E => some 0x0A
  | 0x72 => some 0x0D
  | 0x74 => some 0x09
  | _ => none

namespace Reader

/-- The four digits of a numeric escape. -/
def hexEscape : Reader Nat := do
  let c ← get
  match c.rest with
  | a :: b :: c' :: d :: rest =>
    set ({ index := c.index + 4, rest } : Cursor)
    match hexValues? a b c' d with
    | some n => return n
    | none => failHere .badEscape
  | short =>
    set ({ index := c.index + short.length, rest := [] } : Cursor)
    failHere .endOfText

/-- The octet `b`, which the second half of a surrogate pair must begin with. -/
def pairMark (b : UInt8) : Reader Unit := do
  match ← peek with
  | none => failHere .endOfText
  | some found => do
    advance
    if found = b then return else failHere .cutEscape

/-- The second half of a surrogate pair, where pairs are asked for. -/
def trailingHalf : Reader Nat := do
  pairMark 0x5C
  pairMark 0x75
  let n ← hexEscape
  if isTrailing n then return n else failHere .loneSurrogate

/-- The second half of a surrogate pair, if it follows. -/
def trailingHalf? : Reader (Option Nat) := do
  let c ← get
  match c.rest with
  | 0x5C :: 0x75 :: a :: b :: c' :: d :: rest =>
    match hexValues? a b c' d with
    | some n =>
      if isTrailing n then do
        set ({ index := c.index + 6, rest } : Cursor)
        return some n
      else return none
    | none => return none
  | _ => return none

/-- A numeric escape. -/
def numericEscape (use : TextUse) : Reader Bytes := do
  let n ← hexEscape
  match use with
  | .text =>
    if isTrailing n then failHere .loneSurrogate
    else if isLeading n then return schemeOctets (paired n (← trailingHalf))
    else return schemeOctets n
  | .octets =>
    if isLeading n then
      match ← trailingHalf? with
      | some low => return schemeOctets (paired n low)
      | none => return schemeOctets n
    else return schemeOctets n

/-- An escape whose backslash has been read. -/
def escape (use : TextUse) : Reader Bytes := do
  match ← next with
  | none => failHere .endOfText
  | some 0x75 => numericEscape use
  | some b =>
    match shortEscape? b with
    | some octet => return [octet]
    | none => failHere .badEscape

/-- The octets of a string up to its closing quote, the opening quote having been read. -/
def stringRest (use : TextUse) : Nat → Reader Bytes
  | 0 => failHere .endOfText
  | fuel + 1 => do
    match ← next with
    | none => failHere .endOfText
    | some 0x22 => return []
    | some 0x5C => do
      let octets ← escape use
      return octets ++ (← stringRest use fuel)
    | some b =>
      if b < 0x20 && use = .text then failHere .controlCharacter
      else return b :: (← stringRest use fuel)

/-- The octets of a string whose opening quote has been read. -/
def octetsOfString : Reader Bytes := do
  stringRest .octets (← allowance)

/-- The text of a string whose opening quote has been read. -/
def textOfString : Reader String := do
  match Bytes.toText? (← stringRest .text (← allowance)) with
  | some s => return s
  | none => failHere .badEncoding

/-- A string whose opening quote has been read is skipped. Its escapes are not interpreted. -/
def ignoredString : Nat → Reader Unit
  | 0 => failHere .endOfText
  | fuel + 1 => do
    match ← peek with
    | none => failHere .endOfText
    | some b =>
      if b < 0x20 then failHere .controlCharacter
      else do
        advance
        if b = 0x22 then return
        else if b = 0x5C then do
          match ← next with
          | none => failHere .endOfText
          | some 0x75 => discard hexEscape
          | some b => if (shortEscape? b).isNone then failHere .badEscape
          ignoredString fuel
        else ignoredString fuel

end Reader

end DiscoveryGraph.Json
