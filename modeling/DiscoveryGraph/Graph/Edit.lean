import DiscoveryGraph.Graph

/-!
# Requests

What discovery and the host ask of the graph: endpoints are announced and forgotten, participants
and nodes come and go, and endpoints are attached to nodes. A request either does all that it
stands for, or is refused and leaves the graph as it was.
-/

namespace DiscoveryGraph.Graph

/-! ## Endpoints -/

/-- An endpoint is announced. If a node waits for it, the endpoint belongs to that node at once. -/
def addEndpoint (g : Graph) (id : EndpointId) (topic type : String) : Outcome Unit :=
  if id ∈ g.endpoints then g.refuse .addEndpoint (.duplicateEndpoint id) none
  else
    let known := { g with endpoints := g.endpoints.insert id (.announced topic type) }
    match g.pending[id]? with
    | none => known.commit () [.endpointAdded id topic type]
    | some key =>
      let awaited := { known with pending := known.pending.erase id }
      match awaited.attach? id key with
      | none => awaited.commit () [.endpointAdded id topic type]
      | some done => done.commit () [.endpointAdded id topic type, .deferredApplied id]

/-- An endpoint is forgotten, and its node no longer lists it. -/
def removeEndpoint (g : Graph) (id : EndpointId) : Outcome Unit :=
  match g.endpoints[id]? with
  | none => g.refuse .removeEndpoint (.unknownEndpoint id) none
  | some endpoint =>
    let nodes := match endpoint.link with
      | some key => g.nodes.detach key id
      | none => g.nodes
    { g with endpoints := g.endpoints.erase id, nodes }.commit ()
      [.endpointRemoved id endpoint.topic]

/-! ## Participants and nodes -/

/-- A participant is registered, without nodes. -/
def addParticipant (g : Graph) (gid : Gid) (enclave : String) : Outcome Unit :=
  if gid ∈ g.participants then g.refuse .addParticipant (.duplicateParticipant gid) none
  else
    { g with participants := g.participants.insert gid { enclave, nodes := [] } }.commit ()
      [.participantAdded gid enclave]

/-- A participant is forgotten together with its nodes. The endpoints of these nodes stay known. -/
def removeParticipant (g : Graph) (gid : Gid) : Outcome Unit :=
  match g.participants[gid]? with
  | none => g.refuse .removeParticipant (.unknownParticipant gid) none
  | some participant =>
    let left := { g with participants := g.participants.erase gid }
    let gone := participant.nodes.filterMap g.nodes.get?
    (participant.nodes.foldl dropNode left).commit ()
      (gone.map (fun node => .nodeRemovedWithParticipant gid node.name) ++
        [.participantRemoved gid])

/-- The total state of a participant, as the answer to a request that has changed it. -/
def answerWithSnapshot (g : Graph) (participant : Gid) (events : List Event) :
    Outcome Snapshot :=
  { g.commit () events with
    result := match g.snapshot? participant with
      | some snapshot => .ok snapshot
      | none => .error (.unknownParticipant participant) }

/-- A node is created under a participant. The answer is the total state of the participant. -/
def addNode (g : Graph) (participant : Gid) (node : NodeName) : Outcome Snapshot :=
  if participant ∉ g.participants then
    g.refuse .addNode (.unknownParticipant participant) (some node)
  else if (g.nodes.find? participant node).isSome then
    g.refuse .addNode (.duplicateNode participant node) none
  else
    (g.insertNode participant node).2.answerWithSnapshot participant
      [.nodeAdded participant node]

/-- A request that is about a node is refused, because the node was not found. The node is named
in the report when it is the participant that is unknown. -/
def refuseNode {α : Type} (g : Graph) (error : GraphError) (node : NodeName) : Outcome α :=
  g.refuse .findNode error <|
    match error with
    | .unknownParticipant _ => some node
    | _ => none

/-- A node is removed. The answer is the total state of the participant without it. -/
def removeNode (g : Graph) (participant : Gid) (node : NodeName) : Outcome Snapshot :=
  match g.find participant node with
  | .error error => g.refuseNode error node
  | .ok key =>
    (g.removeNodeAt participant key).answerWithSnapshot participant
      [.nodeRemoved participant node]

/-! ## Associations -/

/-- An endpoint is attached to a node, and leaves the node that it belonged to. -/
def associate (g : Graph) (id : EndpointId) (participant : Gid) (node : NodeName) :
    Outcome Unit :=
  match g.find participant node with
  | .error error => g.refuseNode error node
  | .ok key =>
    if id ∉ g.endpoints then g.refuse .associate (.unknownEndpoint id) none
    else match g.attach? id key with
      | none => g.keep ()
      | some done => done.commit () [.associated id participant node]

/-- An endpoint is detached from a node. Nothing happens if it does not belong to that node. -/
def dissociate (g : Graph) (id : EndpointId) (participant : Gid) (node : NodeName) :
    Outcome Unit :=
  match g.find participant node with
  | .error error => g.refuseNode error node
  | .ok key =>
    if id ∉ g.endpoints then g.refuse .dissociate (.unknownEndpoint id) none
    else match g.detach? id key with
      | none => g.keep ()
      | some done => done.commit () [.dissociated id participant node]

end DiscoveryGraph.Graph
