import DiscoveryGraph.Bytes
import DiscoveryGraph.Mismatch

/-!
# Reading JSON

A reader walks over octets one at a time. When it fails, it says what is wrong and where: either at
the octet it has just read, or at the one that it is looking at. A mismatch between data and
reader is noticed without a place, and gets one from the value around it.

* `skipBlanks_idem`: white space is skipped once and for all.
-/

namespace DiscoveryGraph.Json

/-- What is wrong with a text. -/
inductive Fault where
  | endOfList
  | endOfObject
  | endOfText
  | endOfValue
  | noColon
  | noListEnd
  | noObjectEnd
  | unknownWord
  | noValue
  | badEscape
  | badNumber
  | numberOutOfRange
  | badEncoding
  | controlCharacter
  | keyIsNoText
  | loneSurrogate
  | cutEscape
  | trailingComma
  | trailingCharacters
  | mismatch (cause : Mismatch)
deriving DecidableEq

/-- The wording of a fault. -/
def Fault.message : Fault → String
  | endOfList => "EOF while parsing a list"
  | endOfObject => "EOF while parsing an object"
  | endOfText => "EOF while parsing a string"
  | endOfValue => "EOF while parsing a value"
  | noColon => "expected `:`"
  | noListEnd => "expected `,` or `]`"
  | noObjectEnd => "expected `,` or `\x7d`"
  | unknownWord => "expected ident"
  | noValue => "expected value"
  | badEscape => "invalid escape"
  | badNumber => "invalid number"
  | numberOutOfRange => "number out of range"
  | badEncoding => "invalid unicode code point"
  | controlCharacter => "control character (\\u0000-\\u001F) found while parsing a string"
  | keyIsNoText => "key must be a string"
  | loneSurrogate => "lone leading surrogate in hex escape"
  | cutEscape => "unexpected end of hex escape"
  | trailingComma => "trailing comma"
  | trailingCharacters => "trailing characters"
  | mismatch cause => cause.message

/-- How far a reader has come. -/
structure Cursor where
  index : Nat
  rest : Bytes

/-- Why reading stopped, and how far it had come by then. -/
structure Failure where
  fault : Fault
  place : Option Nat
  cursor : Cursor

/-- A computation that reads octets. -/
abbrev Reader := StateT Cursor (Except Failure)

/-- Space, line feed, tab and carriage return. -/
def isBlank (b : UInt8) : Bool :=
  b = 0x20 || b = 0x0A || b = 0x09 || b = 0x0D

namespace Cursor

/-- The first octet that is not white space is next. -/
def skipBlanks (c : Cursor) : Cursor :=
  { index := c.index + (c.rest.takeWhile isBlank).length, rest := c.rest.dropWhile isBlank }

theorem skipBlanks_idem (c : Cursor) : c.skipBlanks.skipBlanks = c.skipBlanks := by
  have h : (c.rest.dropWhile isBlank).takeWhile isBlank = [] ∧
      (c.rest.dropWhile isBlank).dropWhile isBlank = c.rest.dropWhile isBlank := by
    induction c.rest with
    | nil => exact ⟨rfl, rfl⟩
    | cons b bs ih => cases hb : isBlank b <;> simp [hb, ih]
  simp [skipBlanks, h]

end Cursor

/-- A place by line and column, both counted in octets from one and zero. -/
structure Position where
  line : Nat
  column : Nat
deriving DecidableEq

/-- Where the first `n` octets of a text end. -/
def positionAfter (n : Nat) (source : Bytes) : Position :=
  let before := source.take n
  { line := before.count 0x0A + 1, column := (before.reverse.takeWhile (· ≠ 0x0A)).length }

/-- The report of a failure. -/
def Failure.message (source : Bytes) (failure : Failure) : String :=
  match failure.place with
  | none => failure.fault.message
  | some n =>
    let position := positionAfter n source
    s!"{failure.fault.message} at line {position.line} column {position.column}"

namespace Reader

/-- Something is wrong at the octet that was read last. -/
def failHere {α : Type} (fault : Fault) : Reader α := fun c =>
  .error { fault, place := some c.index, cursor := c }

/-- Something is wrong at the octet that would be read next. -/
def failAhead {α : Type} (fault : Fault) : Reader α := fun c =>
  .error { fault, place := some (if c.rest.isEmpty then c.index else c.index + 1), cursor := c }

/-- The data is not what is wanted here; the place is settled by the value around it. -/
def reject {α : Type} (cause : Mismatch) : Reader α := fun c =>
  .error { fault := .mismatch cause, place := none, cursor := c }

/-- A mismatch without a place is reported where the reader stands. -/
def placed {α : Type} (read : Reader α) : Reader α := fun c =>
  match read c with
  | .ok result => .ok result
  | .error failure =>
    .error { failure with place := some (failure.place.getD failure.cursor.index) }

/-- The end of a list or object is read whether or not reading its content succeeds, and the
first failure counts. -/
def closedBy {α : Type} (read : Reader α) (close : Reader Unit) : Reader α := fun c =>
  match read c with
  | .ok (value, c) => (close c).map fun closed => (value, closed.2)
  | .error failure =>
    match close failure.cursor with
    | .ok (_, c) => .error { failure with cursor := c }
    | .error late => .error { failure with cursor := late.cursor }

/-- The next octet, which stays unread. -/
def peek : Reader (Option UInt8) := do
  return (← get).rest.head?

/-- The next octet is read. -/
def advance : Reader Unit :=
  modify fun c => { index := c.index + 1, rest := c.rest.tail }

/-- The next octet, which is read if there is one. -/
def next : Reader (Option UInt8) := do
  match ← peek with
  | none => return none
  | some b => do
    advance
    return some b

/-- The next octet behind white space, which stays unread. -/
def peekPastBlanks : Reader (Option UInt8) := do
  modify Cursor.skipBlanks
  peek

/-- How many octets there are, and one more. -/
def allowance : Reader Nat := do
  return (← get).rest.length + 1

/-- The rest of a word whose first letter has been read. -/
def wordEnd : Bytes → Reader Unit
  | [] => return
  | letter :: letters => do
    match ← next with
    | none => failHere .endOfValue
    | some b => if b = letter then wordEnd letters else failHere .unknownWord

/-- A value, told apart by its first octet. -/
def value {α : Type} (read : UInt8 → Reader α) : Reader α := do
  match ← peekPastBlanks with
  | none => failAhead .endOfValue
  | some b => read b

end Reader

end DiscoveryGraph.Json
