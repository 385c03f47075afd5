import DiscoveryGraph.Json.Number
import DiscoveryGraph.Json.Text

/-!
# Values that nobody wants

A value under an unknown key is skipped. It must be well formed, but nothing is made of it, and
lists and objects in it may be nested to any depth: what is open is kept on a stack.
-/

namespace DiscoveryGraph.Json

/-- What is open around a skipped value. -/
inductive Enclosure where
  | list
  | object
deriving DecidableEq

/-- The octet that ends an enclosure. -/
def Enclosure.close : Enclosure → UInt8
  | list => 0x5D
  | object => 0x7D

/-- What is missed when the text ends within an enclosure. -/
def Enclosure.cut : Enclosure → Fault
  | list => .endOfList
  | object => .endOfObject

/-- What is missed when a part of an enclosure is followed by neither a comma nor the end. -/
def Enclosure.noEnd : Enclosure → Fault
  | list => .noListEnd
  | object => .noObjectEnd

namespace Reader

/-- The digits of an exponent are skipped, from the letter on. -/
def ignoredExponent : Reader Unit := do
  advance
  discard exponentSign
  match ← next with
  | none => failHere .badNumber
  | some b => if isDigit b then discard skipDigits else failHere .badNumber

/-- What follows the digits before the point is skipped. -/
def ignoredNumberEnd : Reader Unit := do
  match ← peek with
  | some 0x2E => do
    advance
    if (← skipDigits) = 0 then failAhead .badNumber
    else match ← peek with
      | some 0x65 | some 0x45 => ignoredExponent
      | _ => return
  | some 0x65 | some 0x45 => ignoredExponent
  | _ => return

/-- A number whose sign has been read is skipped. -/
def ignoredNumber : Reader Unit := do
  match ← next with
  | none => failHere .badNumber
  | some 0x30 =>
    if ((← peek).map isDigit) = some true then failAhead .badNumber else ignoredNumberEnd
  | some b =>
    if isDigit b then do
      discard skipDigits
      ignoredNumberEnd
    else failHere .badNumber

/-- A value is skipped, unless it encloses others. Then only its bracket is, and the enclosure is
returned. -/
def ignoredStart (b : UInt8) : Reader (Option Enclosure) := do
  if b = 0x6E then do
    advance
    wordEnd (Bytes.ofText "ull")
    return none
  else if b = 0x74 then do
    advance
    wordEnd (Bytes.ofText "rue")
    return none
  else if b = 0x66 then do
    advance
    wordEnd (Bytes.ofText "alse")
    return none
  else if b = 0x2D then do
    advance
    ignoredNumber
    return none
  else if isDigit b then do
    ignoredNumber
    return none
  else if b = 0x22 then do
    advance
    ignoredString (← allowance)
    return none
  else if b = 0x5B then do
    advance
    return some .list
  else if b = 0x7B then do
    advance
    return some .object
  else failAhead .noValue

/-- The key and the colon in front of a value. -/
def ignoredKey : Reader Unit := do
  match ← peekPastBlanks with
  | none => failAhead .endOfObject
  | some b =>
    if b = 0x22 then do
      advance
      ignoredString (← allowance)
      match ← peekPastBlanks with
      | none => failAhead .endOfObject
      | some b => if b = 0x3A then advance else failAhead .noColon
    else failAhead .keyIsNoText

/-- Ends are skipped as long as they come. If the outermost enclosure ends, nothing is left open.
Otherwise another value is to follow: behind a comma, or at once in an enclosure that has just
been opened. -/
def ignoredEnds : Bool → List Enclosure → Reader (List Enclosure)
  | _, [] => return []
  | opened, top :: outer => do
    match ← peekPastBlanks with
    | none => failAhead top.cut
    | some b =>
      if b = 0x2C && !opened then do
        advance
        return top :: outer
      else if b = top.close then do
        advance
        ignoredEnds false outer
      else if opened then return top :: outer
      else failAhead top.noEnd

/-- A value is skipped, and then all that is left in the enclosures around it. -/
def ignoredWithin : Nat → List Enclosure → Reader Unit
  | 0, _ => failHere .endOfValue
  | fuel + 1, stack => do
    let opened ← value ignoredStart
    match ← ignoredEnds opened.isSome (opened.toList ++ stack) with
    | [] => return
    | top :: outer => do
      if top = .object then ignoredKey
      ignoredWithin fuel (top :: outer)

/-- A value is skipped. -/
def ignored : Reader Unit := do
  ignoredWithin (← allowance) []

end Reader

end DiscoveryGraph.Json
