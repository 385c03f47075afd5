import DiscoveryGraph.Field
import DiscoveryGraph.Json.Ignored

/-!
# Values of a known type in JSON

Every reader knows what it wants: a truth value, a text, a list, a record. A record is an object
whose keys name the fields, in any order and with unknown keys skipped, or else a list of the
values in the order of the fields.
-/

namespace DiscoveryGraph.Json.Reader

/-- Something else stands where a value was expected. Scalars are read first, so that a malformed
one is reported as such. -/
def unexpected {α : Type} (b : UInt8) (expected : String) : Reader α :=
  placed do
    let wrong (found : Found) : Reader α := reject (.wrongType found expected)
    if b = 0x6E then do
      advance
      wordEnd (Bytes.ofText "ull")
      wrong (.other "null")
    else if b = 0x74 then do
      advance
      wordEnd (Bytes.ofText "rue")
      wrong (.boolean true)
    else if b = 0x66 then do
      advance
      wordEnd (Bytes.ofText "alse")
      wrong (.boolean false)
    else if b = 0x2D then do
      advance
      wrong (← number false).found
    else if isDigit b then do
      wrong (← number true).found
    else if b = 0x22 then do
      advance
      wrong (.text (← textOfString))
    else if b = 0x5B then wrong .list
    else if b = 0x7B then wrong .map
    else failAhead .noValue

/-! ## Scalars -/

/-- A truth value. -/
def boolean : Reader Bool :=
  value fun b =>
    if b = 0x74 then do
      advance
      wordEnd (Bytes.ofText "rue")
      return true
    else if b = 0x66 then do
      advance
      wordEnd (Bytes.ofText "alse")
      return false
    else unexpected b "a boolean"

/-- A text, which is then looked at; what is wrong with it is reported behind it. -/
def textThen {α : Type} (expected : String) (read : String → Reader α) : Reader α :=
  value fun b =>
    if b = 0x22 then placed do
      advance
      read (← textOfString)
    else unexpected b expected

/-- A text. -/
def text : Reader String :=
  textThen "a string" pure

/-- Null. -/
def null : Reader Unit :=
  value fun b =>
    if b = 0x6E then do
      advance
      wordEnd (Bytes.ofText "ull")
    else unexpected b "unit"

/-- An octet written as an integer. -/
def octet : Reader UInt8 :=
  value fun b =>
    let octetOf (n : Number) : Reader UInt8 :=
      match n with
      | .natural n =>
        if n < 256 then return UInt8.ofNat n
        else reject (.wrongValue (.integer n) "u8")
      | .negative n => reject (.wrongValue (.integer n) "u8")
      | .double x => reject (.wrongType (Number.double x).found "u8")
    if b = 0x2D then placed do
      advance
      octetOf (← number false)
    else if isDigit b then placed do
      octetOf (← number true)
    else unexpected b "u8"

/-! ## Lists -/

/-- Whether another element follows in a list. -/
def hasElement (first : Bool) : Reader Bool := do
  match ← peekPastBlanks with
  | none => failAhead .endOfList
  | some b =>
    if b = 0x5D then return false
    else if first then return true
    else if b = 0x2C then do
      advance
      match ← peekPastBlanks with
      | none => failAhead .endOfValue
      | some b => if b = 0x5D then failAhead .trailingComma else return true
    else failAhead .noListEnd

/-- The end of a list. -/
def listEnd : Reader Unit := do
  match ← peekPastBlanks with
  | none => failAhead .endOfList
  | some b =>
    if b = 0x5D then advance
    else if b = 0x2C then do
      advance
      if (← peekPastBlanks) = some 0x5D then failAhead .trailingComma
      else failAhead .trailingCharacters
    else failAhead .trailingCharacters

/-- As long as elements follow in a list, `step` reads one. -/
def elements {σ : Type} (step : σ → Reader σ) : Nat → Bool → σ → Reader σ
  | 0, _, _ => failHere .endOfList
  | fuel + 1, first, s => do
    if ← hasElement first then elements step fuel false (← step s) else return s

/-- A list, from its bracket on. -/
def listOf {σ : Type} (step : σ → Reader σ) (s : σ) : Reader σ :=
  placed do
    advance
    closedBy (do elements step (← allowance) true s) listEnd

/-- A list. -/
def list {α : Type} (element : Reader α) : Reader (List α) :=
  value fun b =>
    if b = 0x5B then listOf (fun xs => return xs ++ [← element]) []
    else unexpected b "a sequence"

/-! ## Records -/

/-- The colon behind a key. -/
def colon : Reader Unit := do
  match ← peekPastBlanks with
  | none => failAhead .endOfObject
  | some b => if b = 0x3A then advance else failAhead .noColon

/-- Whether another entry follows in an object. -/
def hasEntry (first : Bool) : Reader Bool := do
  match ← peekPastBlanks with
  | none => failAhead .endOfObject
  | some b =>
    if b = 0x7D then return false
    else if first then
      if b = 0x22 then return true else failAhead .keyIsNoText
    else if b = 0x2C then do
      advance
      match ← peekPastBlanks with
      | none => failAhead .endOfValue
      | some b =>
        if b = 0x22 then return true
        else if b = 0x7D then failAhead .trailingComma
        else failAhead .keyIsNoText
    else failAhead .noObjectEnd

/-- The end of an object. -/
def objectEnd : Reader Unit := do
  match ← peekPastBlanks with
  | none => failAhead .endOfObject
  | some b =>
    if b = 0x7D then advance
    else if b = 0x2C then failAhead .trailingComma
    else failAhead .trailingCharacters

/-- One entry of a record. -/
def entry {σ : Type} (fields : List (Field Reader σ)) (draft : σ) : Reader σ := do
  advance
  let name ← textOfString
  match fields.find? (·.name = name) with
  | none => do
    colon
    ignored
    return draft
  | some field =>
    if field.present draft then reject (.duplicateField field.name)
    else do
      colon
      field.read draft

/-- As long as entries follow in an object, they are read into the draft. -/
def entries {σ : Type} (fields : List (Field Reader σ)) : Nat → Bool → σ → Reader σ
  | 0, _, _ => failHere .endOfObject
  | fuel + 1, first, draft => do
    if ← hasEntry first then entries fields fuel false (← entry fields draft) else return draft

/-- The result of a step that may find a mismatch. -/
def checked {α : Type} : Except Mismatch α → Reader α
  | .ok value => return value
  | .error cause => reject cause

/-- The values of a record that is written as a list. Fewer values than fields are an error that
tells their number, unless fields may be missing. -/
def values {σ : Type} (short : Nat → Option Mismatch) :
    List (Field Reader σ) → Nat → σ → Reader σ
  | [], _, draft => return draft
  | field :: fields, count, draft => do
    if ← hasElement (count = 0) then values short fields (count + 1) (← field.read draft)
    else match short count with
      | none => return draft
      | some cause => reject cause

/-- What a record with all its fields is expected to be when it is written as a list. -/
def recordLength (name : String) (count length : Nat) : Option Mismatch :=
  some (.wrongLength length s!"struct {name} with {count} elements")

/-- A record of the given name, read into a draft that is completed at the end. -/
def record {σ α : Type} (name : String) (fields : List (Field Reader σ))
    (short : Nat → Option Mismatch) (blank : σ) (finish : σ → Except Mismatch α) : Reader α :=
  value fun b =>
    if b = 0x5B then placed do
      advance
      closedBy (do checked (finish (← values short fields 0 blank))) listEnd
    else if b = 0x7B then placed do
      advance
      closedBy (do checked (finish (← entries fields (← allowance) true blank))) objectEnd
    else unexpected b s!"struct {name}"

/-! ## Whole texts -/

/-- Nothing but white space is left. -/
def finished : Reader Unit := do
  match ← peekPastBlanks with
  | none => return
  | some _ => failAhead .trailingCharacters

/-- The value that a whole text holds, or the report of what is wrong with it. -/
def readAll {α : Type} (read : Reader α) (source : Bytes) : Except String α :=
  let whole : Reader α := do
    let value ← read
    finished
    return value
  match whole { index := 0, rest := source } with
  | .ok (value, _) => .ok value
  | .error failure => .error (failure.message source)

end DiscoveryGraph.Json.Reader
