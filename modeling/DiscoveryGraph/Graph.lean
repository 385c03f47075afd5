import DiscoveryGraph.Event
import DiscoveryGraph.NodeArena
import DiscoveryGraph.Prefs
import DiscoveryGraph.Snapshot

/-!
# The discovery graph

The graph holds the endpoints that discovery has announced, the participants with the nodes that
they host, and the association of endpoints with nodes. An association is written down on both
sides: the endpoint links to the slot of its node, and the node lists the endpoint. An association
whose endpoint is not announced yet is pending.
-/

namespace DiscoveryGraph

open Std (ExtTreeMap)

/-- A participant: its enclave, and the slots of its nodes in the order of their creation. -/
structure Participant where
  enclave : String
  nodes : List NodeKey
deriving DecidableEq

/-- The state of the graph. -/
structure Graph where
  endpoints : ExtTreeMap EndpointId Endpoint
  participants : ExtTreeMap Gid Participant
  nodes : NodeArena
  /-- The nodes that wait for endpoints which have not been announced. -/
  pending : ExtTreeMap EndpointId NodeKey
  prefs : Prefs
  watched : Bool
deriving DecidableEq

namespace Graph

/-- A graph without content, whose arena treats given-back slots as `policy` says. -/
def emptyWith (policy : SlotPolicy) (prefs : Prefs) : Graph :=
  { endpoints := ∅, participants := ∅, nodes := .empty policy, pending := ∅, prefs,
    watched := false }

/-- A graph without content. -/
def empty (prefs : Prefs) : Graph :=
  emptyWith .recycle prefs

/-- Somebody is told about changes from now on. -/
def watch (g : Graph) : Graph :=
  { g with watched := true }

/-- Nobody is told about changes from now on. -/
def unwatch (g : Graph) : Graph :=
  { g with watched := false }

/-! ## Queries -/

/-- What is known of an endpoint. -/
def endpoint? (g : Graph) (id : EndpointId) : Option Endpoint :=
  g.endpoints[id]?

/-- The endpoints of one kind, in ascending order of their identifiers. -/
def endpointsOf (g : Graph) (kind : EndpointKind) : List (EndpointId × Endpoint) :=
  g.endpoints.toList.filter (·.1.kind = kind)

/-- The endpoints of one kind whose raw topic name is `topic`. -/
def endpointsOn (g : Graph) (kind : EndpointKind) (topic : String) :
    List (EndpointId × Endpoint) :=
  (g.endpointsOf kind).filter (·.2.topic = topic)

/-- How many endpoints of one kind have the raw topic name `topic`. -/
def endpointCount (g : Graph) (kind : EndpointKind) (topic : String) : Nat :=
  (g.endpointsOn kind topic).length

/-- The names of all nodes, in order. -/
def nodeNames (g : Graph) : List NodeName :=
  g.nodes.listing.map (·.name)

/-- The enclave of a participant; the empty one when it is unknown. -/
def enclaveOf (g : Graph) (participant : Gid) : String :=
  (g.participants[participant]?.map (·.enclave)).getD ""

/-- The names of all nodes, in order, each with the enclave of its participant. -/
def nodeNamesWithEnclaves (g : Graph) : List (NodeName × String) :=
  g.nodes.listing.map fun node => (node.name, g.enclaveOf node.participant)

/-- How many nodes there are. -/
def nodeCount (g : Graph) : Nat :=
  g.nodes.size

/-- How many associations wait for their endpoint. -/
def pendingCount (g : Graph) : Nat :=
  g.pending.size

/-- The total state of a participant. -/
def snapshotOf (g : Graph) (gid : Gid) (participant : Participant) : Snapshot where
  gid := gid
  nodes := (participant.nodes.filterMap g.nodes.get?).map fun node =>
    { node := node.name, readers := node.listed .reader, writers := node.listed .writer }

/-- The total state of the participant `gid`, if it is known. -/
def snapshot? (g : Graph) (gid : Gid) : Option Snapshot :=
  g.participants[gid]?.map (g.snapshotOf gid)

/-- The slot of a node, or the reason why there is none. -/
def find (g : Graph) (participant : Gid) (node : NodeName) : Except GraphError NodeKey :=
  if participant ∉ g.participants then .error (.unknownParticipant participant)
  else match g.nodes.find? participant node with
    | some key => .ok key
    | none => .error (.unknownNode participant node)

/-! ## Steps that keep both sides of an association in line -/

/-- The endpoint joins the node in slot `key` and leaves the one that it belonged to. There is
nothing to do if no node is in the slot, the endpoint is unknown, or it belongs to the node
already. -/
def attach? (g : Graph) (id : EndpointId) (key : NodeKey) : Option Graph :=
  match g.nodes.get? key, g.endpoints[id]? with
  | some _, some endpoint =>
    if endpoint.link = some key then none
    else
      let left := match endpoint.link with
        | some old => g.nodes.detach old id
        | none => g.nodes
      some { g with
        endpoints := g.endpoints.insert id (endpoint.linked key)
        nodes := left.attach key id }
  | _, _ => none

/-- The endpoint leaves the node in slot `key`. There is nothing to do if the endpoint is unknown
or does not belong to that node. -/
def detach? (g : Graph) (id : EndpointId) (key : NodeKey) : Option Graph :=
  match g.endpoints[id]? with
  | some endpoint =>
    if endpoint.link = some key then
      some { g with
        endpoints := g.endpoints.insert id endpoint.unlinked
        nodes := g.nodes.detach key id }
    else none
  | none => none

/-- A new node under a participant, and its slot. -/
def insertNode (g : Graph) (participant : Gid) (name : NodeName) : NodeKey × Graph :=
  let (key, nodes) := g.nodes.insert participant name
  (key, { g with
    nodes
    participants := g.participants.modify participant fun record =>
      { record with nodes := record.nodes ++ [key] } })

/-- The node in slot `key` goes away. Its endpoints stay known without a node, and nothing waits
on its behalf any more. The list of its participant is left alone. -/
def dropNode (g : Graph) (key : NodeKey) : Graph :=
  match g.nodes.get? key with
  | none => g
  | some node => { g with
      nodes := g.nodes.erase key
      endpoints := g.endpoints.map fun id endpoint =>
        if id ∈ node.endpoints then endpoint.unlinked else endpoint
      pending := g.pending.filter fun _ waiting => waiting ≠ key }

/-- The node in slot `key` goes away, and its participant no longer hosts it. -/
def removeNodeAt (g : Graph) (participant : Gid) (key : NodeKey) : Graph :=
  { g with participants := g.participants.modify participant fun record =>
      { record with nodes := record.nodes.filter (· ≠ key) } }.dropNode key

end Graph

/-! ## Outcomes -/

/-- What a request leads to: its answer, the graph afterwards, whether the watcher was told, and
the events reported on the way. -/
structure Outcome (α : Type) where
  /-- The answer, or the cause of the refusal. -/
  result : Except GraphError α
  graph : Graph
  /-- Whether the watcher was told about a change. -/
  notified : Bool
  events : List Event

namespace Graph

/-- A request is refused: the graph stays as it is and the refusal is reported. -/
def refuse {α : Type} (g : Graph) (request : Request) (error : GraphError)
    (node : Option NodeName) : Outcome α :=
  { result := .error error, graph := g, notified := false,
    events := [.refused request error node] }

/-- A request finds nothing to change. -/
def keep {α : Type} (g : Graph) (value : α) : Outcome α :=
  { result := .ok value, graph := g, notified := false, events := [] }

/-- A request has led to this graph, and whoever watches it is told. -/
def commit {α : Type} (g : Graph) (value : α) (events : List Event) : Outcome α :=
  { result := .ok value, graph := g, notified := g.watched, events }

end Graph

end DiscoveryGraph
