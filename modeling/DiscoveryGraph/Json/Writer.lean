import DiscoveryGraph.Bytes

/-!
# Writing JSON

Stored values are written over several lines, each part of a list or object on a line of its own
and two spaces further in. Empty lists stay on one line.
-/

namespace DiscoveryGraph.Json

/-- An octet of a string, with an escape where one is needed. -/
def writeOctet (b : UInt8) : Bytes :=
  if b = 0x22 then [0x5C, 0x22]
  else if b = 0x5C then [0x5C, 0x5C]
  else if b = 0x08 then [0x5C, 0x62]
  else if b = 0x09 then [0x5C, 0x74]
  else if b = 0x0A then [0x5C, 0x6E]
  else if b = 0x0C then [0x5C, 0x66]
  else if b = 0x0D then [0x5C, 0x72]
  else if b < 0x20 then Bytes.ofText "\\u00" ++ Bytes.ofText (Bytes.hex [b])
  else [b]

/-- A text. -/
def writeText (s : String) : Bytes :=
  0x22 :: (Bytes.ofText s).flatMap writeOctet ++ [0x22]

/-- A truth value. -/
def writeBoolean (b : Bool) : Bytes :=
  Bytes.ofText (if b then "true" else "false")

/-- A number. -/
def writeNatural (n : Nat) : Bytes :=
  Bytes.ofText (toString n)

/-- A new line, `depth` steps in. -/
def newLine (depth : Nat) : Bytes :=
  0x0A :: List.replicate (2 * depth) 0x20

/-- Parts between two brackets, where the brackets stand `depth` steps in. -/
def writeParts (opening closing : UInt8) (depth : Nat) : List Bytes → Bytes
  | [] => [opening, closing]
  | first :: others =>
    opening :: newLine (depth + 1) ++ first ++
      (others.flatMap fun part => 0x2C :: newLine (depth + 1) ++ part) ++
      newLine depth ++ [closing]

/-- A list whose elements are written one step further in. -/
def writeList {α : Type} (element : Nat → α → Bytes) (depth : Nat) (xs : List α) : Bytes :=
  writeParts 0x5B 0x5D depth (xs.map (element (depth + 1)))

/-- An object whose values are written one step further in. -/
def writeRecord (depth : Nat) (fields : List (String × (Nat → Bytes))) : Bytes :=
  writeParts 0x7B 0x7D depth <| fields.map fun field =>
    writeText field.1 ++ [0x3A, 0x20] ++ field.2 (depth + 1)

end DiscoveryGraph.Json
