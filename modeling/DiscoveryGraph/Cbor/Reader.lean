import DiscoveryGraph.Cbor.Head

/-!
# Reading CBOR

A reader walks over octets head by head. It can look at the next head and leave it for the next
reader, which is how it finds out where content of open length ends. Strings are read in blocks,
lists and maps may be nested up to a given depth.

* `takeExactly_append`: exactly the octets asked for are taken.
* `takeExactly_eq_none`: only too short an input has too few of them.
-/

namespace DiscoveryGraph.Cbor

/-- Why a message cannot be read. -/
inductive Failure where
  | endOfInput
  | malformed (offset : Nat)
  | tooDeep
  | mismatch (cause : Mismatch)
deriving DecidableEq

/-- The structural listing of a failure, on one line. -/
def Failure.outline : Failure → String
  | endOfInput =>
    "Io(Error \x7b kind: UnexpectedEof, message: \"failed to fill whole buffer\" \x7d)"
  | malformed offset => s!"Syntax({offset})"
  | tooDeep => "RecursionLimitExceeded"
  | mismatch cause => s!"Semantic(None, {Text.quoted cause.message})"

/-- How far a reader has come. -/
structure Cursor where
  offset : Nat
  rest : Bytes
  ahead : Option Head

/-- A computation that reads octets. -/
abbrev Reader := StateT Cursor (Except Failure)

namespace Reader

/-- The message cannot be read. -/
def fail {α : Type} (failure : Failure) : Reader α :=
  throw failure

/-- The message does not hold what its reader wants. -/
def reject {α : Type} (cause : Mismatch) : Reader α :=
  fail (.mismatch cause)

/-- An item with this head is not what its reader wants. -/
def unexpected {α : Type} (head : Head) (expected : String) : Reader α :=
  reject (.wrongType head.found expected)

/-! ## Octets and heads -/

/-- The first `n` octets and the rest, if there are so many. -/
def takeExactly : Nat → Bytes → Option (Bytes × Bytes)
  | 0, bs => some ([], bs)
  | _ + 1, [] => none
  | n + 1, b :: bs => (takeExactly n bs).map fun parts => (b :: parts.1, parts.2)

theorem takeExactly_append (bs rest : Bytes) :
    takeExactly bs.length (bs ++ rest) = some (bs, rest) := by
  induction bs with
  | nil => rfl
  | cons b bs ih => simp [takeExactly, ih]

theorem takeExactly_eq_none {n : Nat} {bs : Bytes} :
    takeExactly n bs = none ↔ bs.length < n := by
  induction n generalizing bs with
  | zero => simp [takeExactly]
  | succ n ih => cases bs <;> simp [takeExactly, ih]

/-- The next `n` octets. -/
def octets (n : Nat) : Reader Bytes := do
  let c ← get
  match takeExactly n c.rest with
  | none => fail .endOfInput
  | some (bs, rest) =>
    set { c with offset := c.offset + n, rest }
    return bs

/-- Where the next item begins. The start of a head that was left for the next reader is counted
back from its end, by the length of its shortest form. -/
def position : Reader Nat := do
  let c ← get
  return match c.ahead with
    | none => c.offset
    | some head => c.offset - head.shortestWidth

/-- The number of octets of the argument that the low five bits of a head's first octet announce.
Below 24 they are the argument itself, and 28 to 30 announce nothing. -/
def argumentWidth? : Nat → Option Nat
  | 24 => some 1
  | 25 => some 2
  | 26 => some 4
  | 27 => some 8
  | 31 => some 0
  | _ => none

/-- A head that nobody has looked at yet. -/
def freshHead : Reader Head := do
  let start := (← get).offset
  let first := Bytes.toNat (← octets 1)
  let (major, low) := (first / 32, first % 32)
  let (argument, width) ←
    if low < 24 then pure (some low, 0)
    else match argumentWidth? low with
      | none => fail (.malformed start)
      | some 0 => pure (none, 0)
      | some width => do pure (some (Bytes.toNat (← octets width)), width)
  match Head.make? major argument width with
  | some head => return head
  | none => fail (.malformed start)

/-- The next head. -/
def head : Reader Head := do
  let c ← get
  match c.ahead with
  | some head =>
    set { c with ahead := none }
    return head
  | none => freshHead

/-- A head is left for the next reader. -/
def leave (head : Head) : Reader Unit :=
  modify fun c => { c with ahead := some head }

/-- How many heads there can be in what has not been read, and one more. -/
def allowance : Reader Nat := do
  return (← get).rest.length + 2

/-- The next head that is no tag, but for the tags that are wanted, and where it begins. -/
def pastTags (wanted : Nat → Bool) : Nat → Reader (Nat × Head)
  | 0 => fail .endOfInput
  | fuel + 1 => do
    let start ← position
    match ← head with
    | .tag n => if wanted n then return (start, .tag n) else pastTags wanted fuel
    | head => return (start, head)

/-- The next head behind all tags, and where it begins. -/
def untagged : Reader (Nat × Head) := do
  pastTags (fun _ => false) (← allowance)

/-! ## Strings -/

/-- The largest string that is read in one piece. -/
def blockSize : Nat :=
  4096

/-- Whether a text that the input cuts short is found malformed before its end is missed. It is
read in blocks, and an incomplete character at the end of a block, of up to three octets, is
carried over to the next one. -/
def brokenBlock : Nat → Bytes → Bool
  | 0, _ => false
  | fuel + 1, bs =>
    if bs.length < blockSize then false
    else
      let valid := (List.range 4).find? fun left =>
        (Bytes.toText? (bs.take (blockSize - left))).isSome
      match valid with
      | none => true
      | some left => brokenBlock fuel (bs.drop (blockSize - left))

/-- A text of `n` octets, whose head begins at `start`. -/
def textOf (start n : Nat) : Reader String := do
  let c ← get
  match takeExactly n c.rest with
  | none => fail (if brokenBlock c.rest.length c.rest then .malformed start else .endOfInput)
  | some (bs, rest) =>
    set { c with offset := c.offset + n, rest }
    match Bytes.toText? bs with
    | some s => return s
    | none => fail (.malformed start)

/-- The segments of a string are handed to `step` one by one, each with the beginning of its head
and its length. A string of open length consists of strings up to a break, and these may be of
open length again; `nested` counts how many are open. -/
def segments {σ : Type} (lengthOf : Head → Option (Option Nat)) (step : Nat → Nat → σ → Reader σ) :
    Nat → Nat → σ → Reader σ
  | 0, _, _ => fail .endOfInput
  | fuel + 1, nested, s => do
    let start ← position
    let head ← head
    if head = .stop && nested = 1 then return s
    else if head = .stop && 1 < nested then segments lengthOf step fuel (nested - 1) s
    else match lengthOf head with
      | none => fail (.malformed start)
      | some none => segments lengthOf step fuel (nested + 1) s
      | some (some n) => do
        let s ← step start n s
        if nested = 0 then return s else segments lengthOf step fuel nested s

/-- The length in the head of a text. -/
def textLength : Head → Option (Option Nat)
  | .text length => some length
  | _ => none

/-- The length in the head of a string of octets. -/
def bytesLength : Head → Option (Option Nat)
  | .bytes length => some length
  | _ => none

/-- The content of a text whose head has been left. -/
def textContent : Reader String := do
  segments textLength (fun start n s => return s ++ (← textOf start n)) (← allowance) 0 ""

/-- The content of a string of octets whose head has been left. -/
def bytesContent : Reader Bytes := do
  segments bytesLength (fun _ n bs => return bs ++ (← octets n)) (← allowance) 0 []

/-- One more segment of a long integer. Its octets are taken in sixteen at a time; zeros in front
do not count. -/
def bignumSegment (n : Nat) (digits : Bytes) : Reader Bytes := do
  let c ← get
  let extend (bs : Bytes) : Bytes := if digits.isEmpty then bs.dropWhile (· = 0) else digits ++ bs
  match takeExactly n c.rest with
  | none =>
    let seen := extend (c.rest.take (c.rest.length / 16 * 16))
    fail (if 16 < seen.length then .mismatch .bignumTooLarge else .endOfInput)
  | some (bs, rest) =>
    set { c with offset := c.offset + n, rest }
    let seen := extend bs
    if 16 < seen.length then reject .bignumTooLarge else return seen

/-- The content of a long integer, behind its tag. -/
def bignum : Reader Nat := do
  match ← head with
  | .bytes length =>
    leave (.bytes length)
    return Bytes.toNat
      (← segments bytesLength (fun _ n digits => bignumSegment n digits) (← allowance) 0 [])
  | head => unexpected head "bytes"

/-! ## Items -/

/-- An integer: a number, or the number before its complement. -/
def integer : Reader (Bool × Nat) := do
  let isBignum (n : Nat) := n = Head.positiveBignum || n = Head.negativeBignum
  let (_, head) ← pastTags isBignum (← allowance)
  match head with
  | .positive n => return (false, n)
  | .negative n => return (true, n)
  | .tag n => return (n = Head.negativeBignum, ← bignum)
  | head => unexpected head "integer"

/-- An octet written as an integer. -/
def octet : Reader UInt8 := do
  match ← integer with
  | (true, _) => reject .negativeInteger
  | (false, n) =>
    if 1 <<< 64 ≤ n then reject .integerTooLarge
    else if 256 ≤ n then reject (.wrongValue (.integer n) "u8")
    else return UInt8.ofNat n

/-- A text. -/
def text : Reader String := do
  match ← untagged with
  | (_, .text length) => do
    leave (.text length)
    textContent
  | (_, head) => unexpected head "string"

/-- The key of a field: a short text or a short string of octets. -/
def key : Reader Bytes := do
  match ← untagged with
  | (start, .text (some n)) =>
    if n ≤ blockSize then return Bytes.ofText (← textOf start n)
    else unexpected (.text (some n)) "str or bytes"
  | (_, .bytes (some n)) =>
    if n ≤ blockSize then octets n else unexpected (.bytes (some n)) "str or bytes"
  | (_, head) => unexpected head "str or bytes"

/-- One level further in. -/
def deeper {α : Type} (body : Nat → Reader α) : Nat → Reader α
  | 0 => fail .tooDeep
  | depth + 1 => body depth

/-- Whether content goes on, and what is then left of its length. An open length ends at a
break. -/
def more : Option Nat → Reader (Option (Option Nat))
  | some 0 => return none
  | some (n + 1) => return some (some n)
  | none => do
    match ← head with
    | .stop => return none
    | head => do
      leave head
      return some none

/-- As long as content goes on, `step` reads a part of it. -/
def parts {σ : Type} (step : σ → Reader σ) : Nat → Option Nat → σ → Reader σ
  | 0, _, _ => fail .endOfInput
  | fuel + 1, length, s => do
    match ← more length with
    | none => return s
    | some left => do parts step fuel left (← step s)

/-- The content of a list or map. -/
def content {σ : Type} (length : Option Nat) (step : σ → Reader σ) (s : σ) : Reader σ := do
  parts step (← allowance) length s

/-- A list. A string of octets stands for the list of its octets, none of which is an element that
anybody wants; what is `expected` of an element is then missed. -/
def list {α : Type} (expected : String) (element : Nat → Reader α) (depth : Nat) :
    Reader (List α) := do
  match ← untagged with
  | (_, .array length) =>
    deeper (fun depth => content length (fun xs => return xs ++ [← element depth]) []) depth
  | (_, .bytes length) => do
    leave (.bytes length)
    match ← bytesContent with
    | [] => return []
    | b :: _ => reject (.wrongType (.integer b.toNat) expected)
  | (_, head) => unexpected head "array"

/-- The reader of what is nested one level further in, if there may be such a level. -/
def nested (inner : Option (Reader Unit)) : Reader (Reader Unit) :=
  match inner with
  | some item => return item
  | none => fail .tooDeep

/-- An item that nobody wants is read by its own type and dropped, and so is what it contains. -/
def ignoredAround (inner : Option (Reader Unit)) : Reader Unit := do
  match ← head with
  | .positive _ | .negative _ | .float _ => return
  | .bytes length => do
    leave (.bytes length)
    discard bytesContent
  | .text length => do
    leave (.text length)
    discard textContent
  | .array length => do
    let item ← nested inner
    content length (fun _ => item) ()
  | .map length => do
    let item ← nested inner
    content length (fun _ => do item; item) ()
  | .tag n =>
    if n = Head.positiveBignum then discard bignum
    else if n = Head.negativeBignum then do
      if 1 <<< 127 ≤ (← bignum) then reject .integerTooLarge
    else do
      let item ← nested inner
      item
  | .simple n =>
    if Head.falseValue ≤ n && n ≤ Head.undefinedValue then return
    else unexpected (.simple n) "known simple value"
  | .stop => unexpected .stop "non-break"

/-- An item that nobody wants, with at most `depth` levels of nesting. -/
def ignored : Nat → Reader Unit
  | 0 => ignoredAround none
  | depth + 1 => ignoredAround (some (ignored depth))

end Reader

end DiscoveryGraph.Cbor
