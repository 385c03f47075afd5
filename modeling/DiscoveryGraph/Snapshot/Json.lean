import DiscoveryGraph.Json.Value
import DiscoveryGraph.Json.Writer

/-!
# Stored snapshots and their parts

Snapshots, nodes, names, kinds and identifiers can be stored as JSON too. An identifier is written
as a list of octets; on reading it may also be a string of 24 octets. A kind is written as the
name of its case; on reading it may also be an object with that name as its only key.
-/

namespace DiscoveryGraph

/-! ## Writing -/

/-- The stored form of an identifier. -/
def Gid.toJson (gid : Gid) (depth : Nat) : Bytes :=
  Json.writeList (fun _ b => Json.writeNatural b.toNat) depth gid.toBytes

/-- The stored form of a kind. -/
def EndpointKind.toJson (kind : EndpointKind) : Bytes :=
  Json.writeText kind.caseName

/-- The stored form of a node name. -/
def NodeName.toJson (node : NodeName) (depth : Nat) : Bytes :=
  Json.writeRecord depth
    [("namespace", fun _ => Json.writeText node.ns), ("name", fun _ => Json.writeText node.name)]

/-- The stored form of a node. -/
def NodeEntities.toJson (entry : NodeEntities) (depth : Nat) : Bytes :=
  Json.writeRecord depth
    [("namespace", fun _ => Json.writeText entry.node.ns),
     ("name", fun _ => Json.writeText entry.node.name),
     ("readers", fun depth => Json.writeList (fun depth gid => gid.toJson depth) depth
        entry.readers),
     ("writers", fun depth => Json.writeList (fun depth gid => gid.toJson depth) depth
        entry.writers)]

/-- The stored form of a snapshot. -/
def Snapshot.toJson (snapshot : Snapshot) (depth : Nat) : Bytes :=
  Json.writeRecord depth
    [("gid", snapshot.gid.toJson),
     ("nodes", fun depth => Json.writeList (fun depth entry => entry.toJson depth) depth
        snapshot.nodes)]

/-! ## Reading -/

namespace Json.Reader

/-- An identifier from its octets. -/
def gidOf (bs : Bytes) : Reader Gid :=
  match Gid.ofBytes? bs with
  | some gid => return gid
  | none => reject (.wrongLength bs.length Gid.expectation)

/-- One more octet of an identifier that is written as a list. A surplus octet is read before it
is refused. -/
def gidOctet (bs : Bytes) : Reader Bytes := do
  let b ← octet
  if bs.length = gidWidth then reject (.wrongLength (gidWidth + 1) Gid.expectation)
  else return bs ++ [b]

/-- An identifier. -/
def gid : Reader Gid :=
  value fun b =>
    if b = 0x22 then placed do
      advance
      gidOf (← octetsOfString)
    else if b = 0x5B then placed do
      advance
      closedBy (do gidOf (← elements gidOctet (← allowance) true [])) listEnd
    else unexpected b Gid.expectation

/-- The cases of a kind, by name. -/
def kindNamed (name : String) : Reader EndpointKind :=
  match [EndpointKind.reader, .writer].find? (·.caseName = name) with
  | some kind => return kind
  | none => reject (.unknownCase name [EndpointKind.reader.caseName, EndpointKind.writer.caseName])

/-- The name of a kind. -/
def kindName : Reader EndpointKind :=
  textThen "variant identifier" kindNamed

/-- A kind. -/
def kind : Reader EndpointKind :=
  value fun b =>
    if b = 0x7B then do
      advance
      let kind ← kindName
      colon
      null
      match ← peekPastBlanks with
      | none => failHere .endOfObject
      | some b =>
        if b = 0x7D then do
          advance
          return kind
        else failHere .noValue
    else if b = 0x22 then kindName
    else failAhead .noValue

/-- A node name. -/
def nodeName : Reader NodeName :=
  record "NodeName" (NodeName.Draft.fields text) (recordLength "NodeName" 2) {}
    NodeName.Draft.finish

/-- A node. -/
def nodeEntities : Reader NodeEntities :=
  record "NodeEntities" (NodeEntities.Draft.fields text (list gid))
    (recordLength "NodeEntities" 4) {} NodeEntities.Draft.finish

/-- A snapshot. -/
def snapshot : Reader Snapshot :=
  record "ParticipantSnapshot" (Snapshot.Draft.fields gid (list nodeEntities))
    (recordLength "ParticipantSnapshot" 2) {} Snapshot.Draft.finish

end Json.Reader

end DiscoveryGraph
