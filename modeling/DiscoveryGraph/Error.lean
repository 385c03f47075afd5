import DiscoveryGraph.Endpoint
import DiscoveryGraph.NodeName

/-!
# Why a request is refused

Every refusal names its cause and the things it is about. None of them is fatal, and a refused
change leaves the graph as it was.
-/

namespace DiscoveryGraph

/-- The cause of a refusal. -/
inductive GraphError where
  | duplicateEndpoint (id : EndpointId)
  | unknownEndpoint (id : EndpointId)
  | duplicateParticipant (gid : Gid)
  | unknownParticipant (gid : Gid)
  | duplicateNode (participant : Gid) (node : NodeName)
  | unknownNode (participant : Gid) (node : NodeName)
  | duplicateSnapshotNode (node : NodeName)
  | invalidGidLength (length : Nat)
deriving DecidableEq

namespace GraphError

/-- The wording of a refusal. -/
def message : GraphError → String
  | duplicateEndpoint id => s!"{id.text} already exists"
  | unknownEndpoint id => s!"{id.text} not found"
  | duplicateParticipant gid => s!"participant {gid.text} already exists"
  | unknownParticipant gid => s!"participant {gid.text} not found"
  | duplicateNode participant node =>
    s!"node {node.text} already exists in participant {participant.text}"
  | unknownNode participant node =>
    s!"node {node.text} not found in participant {participant.text}"
  | duplicateSnapshotNode node => s!"snapshot lists node {node.text} more than once"
  | invalidGidLength length => s!"invalid gid length {length}, expected {gidWidth}"

end GraphError

namespace Gid

/-- The identifier with exactly these octets. -/
def ofBytes (bs : Bytes) : Except GraphError Gid :=
  match ofBytes? bs with
  | some gid => .ok gid
  | none => .error (.invalidGidLength bs.length)

/-- The identifier that starts with these octets and is filled up with zeros. -/
def ofLeading (bs : Bytes) : Except GraphError Gid :=
  match ofLeading? bs with
  | some gid => .ok gid
  | none => .error (.invalidGidLength bs.length)

end Gid

end DiscoveryGraph
