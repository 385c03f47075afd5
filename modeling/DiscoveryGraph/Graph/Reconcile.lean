import DiscoveryGraph.Digest
import DiscoveryGraph.Graph

/-!
# Merging a snapshot

A snapshot has the last word on the participant that it names: afterwards the participant hosts
exactly the nodes of the snapshot, and each of them has exactly the listed endpoints that are
known. An endpoint listed under several nodes goes to the first of them. A listed endpoint that
is not known yet waits, if the preferences allow it. Only differences are carried out, and the
summary counts them.
-/

namespace DiscoveryGraph

open Std (ExtTreeSet)

/-- How far a merge has come. -/
structure Merge where
  graph : Graph
  summary : Summary
  events : List Event

namespace Merge

/-- The participant exists from now on. -/
def ensureParticipant (m : Merge) (gid : Gid) : Merge :=
  if gid ∈ m.graph.participants then m
  else { m with
    graph := { m.graph with
      participants := m.graph.participants.insert gid { enclave := "", nodes := [] } }
    summary := { m.summary with participantCreated := true } }

/-- The slots of the participant's nodes that are not among `names`. -/
def staleKeys (g : Graph) (gid : Gid) (names : List NodeName) : List NodeKey :=
  ((g.participants[gid]?.map (·.nodes)).getD []).filter fun key =>
    (g.nodes.get? key).all (·.name ∉ names)

/-- One node of the participant is removed. -/
def removeNode (gid : Gid) (m : Merge) (key : NodeKey) : Merge where
  graph := m.graph.removeNodeAt gid key
  summary := { m.summary with nodesRemoved := m.summary.nodesRemoved + 1 }
  events := m.events ++
    (m.graph.nodes.get? key).toList.map fun node => .nodeRemoved gid node.name

/-- The nodes that the snapshot does not list are removed. -/
def removeStale (m : Merge) (gid : Gid) (names : List NodeName) : Merge :=
  (staleKeys m.graph gid names).foldl (removeNode gid) m

/-- The slot of a node of the participant, which is created if need be. -/
def ensureNode (m : Merge) (gid : Gid) (name : NodeName) : NodeKey × Merge :=
  match m.graph.nodes.find? gid name with
  | some key => (key, m)
  | none =>
    let (key, graph) := m.graph.insertNode gid name
    (key, {
      graph
      summary := { m.summary with nodesAdded := m.summary.nodesAdded + 1 }
      events := m.events ++ [.nodeAdded gid name] })

/-- An endpoint that the node no longer lists leaves it. -/
def release (key : NodeKey) (m : Merge) (id : EndpointId) : Merge :=
  match m.graph.detach? id key with
  | none => m
  | some graph => { m with
      graph
      summary := { m.summary with
        associationsRemoved := m.summary.associationsRemoved + 1 } }

/-- The node no longer waits for endpoints other than the wanted ones. -/
def retainPending (m : Merge) (key : NodeKey) (wanted : ExtTreeSet EndpointId) : Merge :=
  { m with graph := { m.graph with
      pending := m.graph.pending.filter fun id waiting => waiting ≠ key || id ∈ wanted } }

/-- A wanted endpoint joins the node, or the node waits for it. -/
def claim (key : NodeKey) (m : Merge) (id : EndpointId) : Merge :=
  if id ∈ m.graph.endpoints then
    match m.graph.attach? id key with
    | none => m
    | some graph => { m with
        graph
        summary := { m.summary with associationsAdded := m.summary.associationsAdded + 1 } }
  else if !m.graph.prefs.reconcile.deferUnknownEndpoints then m
  else if m.graph.pending[id]? = some key then m
  else {
    graph := { m.graph with pending := m.graph.pending.insert id key }
    summary := { m.summary with deferred := m.summary.deferred + 1 }
    events := m.events ++ [.deferred id] }

/-- The endpoints of the node in slot `key`. -/
def currentOf (g : Graph) (key : NodeKey) : ExtTreeSet EndpointId :=
  ((g.nodes.get? key).map (·.endpoints)).getD ∅

/-- The node in slot `key` gets exactly the wanted endpoints. -/
def settle (m : Merge) (key : NodeKey) (wanted : ExtTreeSet EndpointId) : Merge :=
  let current := currentOf m.graph key
  let released := (current.toList.filter (· ∉ wanted)).foldl (release key) m
  (wanted.toList.filter (· ∉ current)).foldl (claim key) (released.retainPending key wanted)

/-- One node of the snapshot is brought into line. -/
def mergeNode (snapshot : Snapshot) (m : Merge) (entry : NodeEntities) : Merge :=
  let (key, hosted) := m.ensureNode snapshot.gid entry.node
  hosted.settle key (ExtTreeSet.ofList (snapshot.owned entry))

/-- The whole merge, except for its report. -/
def run (g : Graph) (snapshot : Snapshot) : Merge :=
  let start : Merge := { graph := g, summary := .none, events := [] }
  let hosted := start.ensureParticipant snapshot.gid
  snapshot.nodes.foldl (mergeNode snapshot) (hosted.removeStale snapshot.gid snapshot.names)

end Merge

namespace Graph

/-- The participant that a snapshot names is brought into line with it. A snapshot that lists a
node twice is refused. -/
def reconcile (g : Graph) (snapshot : Snapshot) : Outcome Summary :=
  match snapshot.repeatedNode? with
  | some node =>
    { result := .error (.duplicateSnapshotNode node), graph := g, notified := false, events := [] }
  | none =>
    let m := Merge.run g snapshot
    { result := .ok m.summary
      graph := m.graph
      notified := m.graph.watched && !m.summary.isNoop
      events := m.events ++ [.reconciled snapshot.gid snapshot.digest m.summary] }

end Graph

end DiscoveryGraph
