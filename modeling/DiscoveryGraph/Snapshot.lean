import DiscoveryGraph.Endpoint
import DiscoveryGraph.NodeName

/-!
# Participant snapshots

Peers exchange the total state of one participant: every node that it hosts, in order, and for
each node the readers and writers that belong to it.
-/

namespace DiscoveryGraph

/-- One node of a participant and the endpoints that belong to it. -/
structure NodeEntities where
  node : NodeName
  readers : List Gid
  writers : List Gid
deriving DecidableEq

namespace NodeEntities

/-- The identifiers listed for one kind of endpoint. -/
def listed (entry : NodeEntities) : EndpointKind → List Gid
  | .reader => entry.readers
  | .writer => entry.writers

/-- Everything that the entry lists, readers first. -/
def ids (entry : NodeEntities) : List EndpointId :=
  entry.readers.map (⟨.reader, ·⟩) ++ entry.writers.map (⟨.writer, ·⟩)

end NodeEntities

/-- The total state of one participant. -/
structure Snapshot where
  gid : Gid
  nodes : List NodeEntities
deriving DecidableEq

namespace Snapshot

/-- The names of the nodes, in order. -/
def names (snapshot : Snapshot) : List NodeName :=
  snapshot.nodes.map (·.node)

/-- The first name that also stands further to the left. -/
def firstRepeated : List NodeName → List NodeName → Option NodeName
  | _, [] => none
  | seen, name :: rest => if name ∈ seen then some name else firstRepeated (name :: seen) rest

/-- The first node that the snapshot lists for the second time. -/
def repeatedNode? (snapshot : Snapshot) : Option NodeName :=
  firstRepeated [] snapshot.names

/-- The node under which an endpoint is listed first. Later listings of it do not count. -/
def owner? (snapshot : Snapshot) (id : EndpointId) : Option NodeName :=
  (snapshot.nodes.find? fun entry => id ∈ entry.ids).map (·.node)

/-- What an entry lists and no earlier entry does. -/
def owned (snapshot : Snapshot) (entry : NodeEntities) : List EndpointId :=
  entry.ids.filter fun id => snapshot.owner? id = some entry.node

end Snapshot

end DiscoveryGraph
