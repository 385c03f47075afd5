import DiscoveryGraph.Cbor.Record

/-!
# Snapshots on the wire

Peers send snapshots as CBOR. A snapshot is written as a record of the participant's identifier
and the list of its nodes, each with its two names and its two lists of identifiers; identifiers
are strings of octets. On reading, an identifier may also be a list of octets.
-/

namespace DiscoveryGraph

/-! ## Writing -/

namespace Cbor

/-- A text behind its length. -/
def writeText (s : String) : Bytes :=
  Head.write 3 (Bytes.ofText s).length ++ Bytes.ofText s

/-- A string of octets behind its length. -/
def writeBytes (bs : Bytes) : Bytes :=
  Head.write 2 bs.length ++ bs

/-- A list behind its length. -/
def writeList {α : Type} (element : α → Bytes) (xs : List α) : Bytes :=
  Head.write 4 xs.length ++ xs.flatMap element

/-- A record behind the number of its fields. -/
def writeRecord (fields : List (String × Bytes)) : Bytes :=
  Head.write 5 fields.length ++ fields.flatMap fun field => writeText field.1 ++ field.2

end Cbor

/-- An identifier on the wire. -/
def Gid.toCbor (gid : Gid) : Bytes :=
  Cbor.writeBytes gid.toBytes

/-- A node on the wire. -/
def NodeEntities.toCbor (entry : NodeEntities) : Bytes :=
  Cbor.writeRecord [
    ("namespace", Cbor.writeText entry.node.ns),
    ("name", Cbor.writeText entry.node.name),
    ("readers", Cbor.writeList Gid.toCbor entry.readers),
    ("writers", Cbor.writeList Gid.toCbor entry.writers)]

/-- A snapshot on the wire. -/
def Snapshot.toCbor (snapshot : Snapshot) : Bytes :=
  Cbor.writeRecord [
    ("gid", snapshot.gid.toCbor),
    ("nodes", Cbor.writeList NodeEntities.toCbor snapshot.nodes)]

/-! ## Reading -/

namespace Cbor.Reader

/-- An identifier from its octets. -/
def gidOf (bs : Bytes) : Reader Gid :=
  match Gid.ofBytes? bs with
  | some gid => return gid
  | none => reject (.wrongLength bs.length Gid.expectation)

/-- One more octet of an identifier that is written as a list. A surplus octet is read before it
is refused. -/
def gidOctet (bs : Bytes) : Reader Bytes := do
  let b ← octet
  if bs.length = gidWidth then reject (.wrongLength (gidWidth + 1) Gid.expectation)
  else return bs ++ [b]

/-- An identifier: a short string of octets, or a list of octets. -/
def gid (depth : Nat) : Reader Gid := do
  match ← untagged with
  | (_, .bytes (some n)) => do
    if n ≤ blockSize then gidOf (← octets n) else unexpected (.bytes (some n)) "bytes"
  | (_, .array length) =>
    deeper (fun _ => do gidOf (← content length gidOctet [])) depth
  | (_, head) => unexpected head "bytes"

/-- A list of identifiers. -/
def gids (depth : Nat) : Reader (List Gid) :=
  list Gid.expectation gid depth

/-- A node. -/
def nodeEntities (depth : Nat) : Reader NodeEntities :=
  record (fun depth => NodeEntities.Draft.fields text (gids depth)) {} NodeEntities.Draft.finish
    depth

/-- A snapshot. -/
def snapshot (depth : Nat) : Reader Snapshot :=
  record (fun depth =>
      Snapshot.Draft.fields (gid depth) (list "struct NodeEntities" nodeEntities depth))
    {} Snapshot.Draft.finish depth

end Cbor.Reader

namespace Snapshot

/-- How deeply lists and maps may be nested in a message. -/
def depthLimit : Nat :=
  256

/-- The snapshot at the front of some octets. What follows it is left alone. -/
def ofCbor (bs : Bytes) : Except Cbor.Failure Snapshot :=
  (Cbor.Reader.snapshot depthLimit).run { offset := 0, rest := bs, ahead := none } |>.map (·.1)

/-- The report that a message holds no snapshot. -/
def decodeError (failure : Cbor.Failure) : String :=
  s!"decode error: {failure.outline}"

end Snapshot

end DiscoveryGraph
