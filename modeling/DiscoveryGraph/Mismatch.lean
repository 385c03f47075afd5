import DiscoveryGraph.Text.Quoted

/-!
# Data that does not fit

A message may be well formed and still not hold what its reader wants. The reader then names what
it found and what it expected, whichever the format of the message.
-/

namespace DiscoveryGraph

/-- What a reader found. -/
inductive Found where
  | integer (n : Int)
  | real (digits : String)
  | boolean (b : Bool)
  | text (s : String)
  | list
  | map
  | other (name : String)
deriving DecidableEq

/-- How a finding is described. -/
def Found.describe : Found → String
  | integer n => s!"integer `{n}`"
  | real digits => s!"floating point `{digits}`"
  | boolean b => s!"boolean `{b}`"
  | text s => s!"string {Text.quoted s}"
  | list => "sequence"
  | map => "map"
  | other name => name

/-- Why data does not fit. -/
inductive Mismatch where
  | missingField (name : String)
  | duplicateField (name : String)
  | wrongLength (length : Nat) (expected : String)
  | wrongValue (found : Found) (expected : String)
  | wrongType (found : Found) (expected : String)
  /-- None of the known cases has this name. -/
  | unknownCase (name : String) (known : List String)
  | negativeInteger
  | integerTooLarge
  /-- An integer has more octets than any width. -/
  | bignumTooLarge
deriving DecidableEq

/-- The wording of a mismatch. -/
def Mismatch.message : Mismatch → String
  | missingField name => s!"missing field `{name}`"
  | duplicateField name => s!"duplicate field `{name}`"
  | wrongLength length expected => s!"invalid length {length}, expected {expected}"
  | wrongValue found expected => s!"invalid value: {found.describe}, expected {expected}"
  | wrongType found expected => s!"invalid type: {found.describe}, expected {expected}"
  | unknownCase name known =>
    let names := " or ".intercalate (known.map fun name => s!"`{name}`")
    s!"unknown variant `{name}`, expected {names}"
  | negativeInteger => "unexpected negative integer"
  | integerTooLarge => "integer too large"
  | bignumTooLarge => "bigint too large"

end DiscoveryGraph
