import DiscoveryGraph.Error

/-!
# Events

Everything that a graph, or a reader of stored preferences, does is reported as an event: a level,
a fixed message, and named texts. Refusals and unreadable preferences are warnings, all else is
for debugging.
-/

namespace DiscoveryGraph

/-- What one merge of a snapshot has changed. -/
structure Summary where
  participantCreated : Bool
  nodesAdded : Nat
  nodesRemoved : Nat
  associationsAdded : Nat
  /-- Endpoints no longer associated with a node that stays. -/
  associationsRemoved : Nat
  /-- Associations that now wait for their endpoint. -/
  deferred : Nat
deriving DecidableEq

namespace Summary

/-- Nothing has changed. -/
def none : Summary :=
  ⟨false, 0, 0, 0, 0, 0⟩

/-- Whether the snapshot agreed with the graph already. -/
def isNoop (summary : Summary) : Bool :=
  summary = none

/-- The one-line structural listing of a summary. -/
def outline (s : Summary) : String :=
  "ReconcileSummary \x7b " ++
    s!"participant_created: {s.participantCreated}, nodes_added: {s.nodesAdded}, " ++
    s!"nodes_removed: {s.nodesRemoved}, associations_added: {s.associationsAdded}, " ++
    s!"associations_removed: {s.associationsRemoved}, deferred: {s.deferred} \x7d"

end Summary

/-- A kind of request, as the report of a refusal names it. -/
inductive Request where
  | addEndpoint
  | removeEndpoint
  | addParticipant
  | removeParticipant
  | addNode
  | findNode
  | associate
  | dissociate
deriving DecidableEq

/-- The message that reports a refusal. -/
def Request.refusal : Request → String
  | addEndpoint => "add_entity rejected"
  | removeEndpoint => "remove_entity rejected"
  | addParticipant => "add_participant rejected"
  | removeParticipant => "remove_participant rejected"
  | addNode => "add_node rejected"
  | findNode => "node lookup failed"
  | associate => "associate rejected"
  | dissociate => "dissociate rejected"

/-- Something that has happened. -/
inductive Event where
  /-- A request was refused. The node is named where the participant was not found. -/
  | refused (request : Request) (error : GraphError) (node : Option NodeName)
  | endpointAdded (id : EndpointId) (topic type : String)
  /-- An announced endpoint was expected by a node and now belongs to it. -/
  | deferredApplied (id : EndpointId)
  | endpointRemoved (id : EndpointId) (topic : String)
  | participantAdded (gid : Gid) (enclave : String)
  | participantRemoved (gid : Gid)
  | nodeRemovedWithParticipant (participant : Gid) (node : NodeName)
  | nodeAdded (participant : Gid) (node : NodeName)
  | nodeRemoved (participant : Gid) (node : NodeName)
  | associated (id : EndpointId) (participant : Gid) (node : NodeName)
  | dissociated (id : EndpointId) (participant : Gid) (node : NodeName)
  | deferred (id : EndpointId)
  | reconciled (participant : Gid) (digest : Bytes) (summary : Summary)
  | prefsMissing (key : String)
  | prefsUnreadable (key reason : String)
deriving DecidableEq

/-- How much attention an event deserves. -/
inductive Level where
  | debug
  | warn
deriving DecidableEq

namespace Event

/-- Refusals and unreadable preferences are warnings. -/
def level : Event → Level
  | refused .. | prefsUnreadable .. => .warn
  | _ => .debug

/-- The fixed message of an event. -/
def message : Event → String
  | refused request _ _ => request.refusal
  | endpointAdded .. => "endpoint added"
  | deferredApplied _ => "deferred association applied"
  | endpointRemoved .. => "endpoint removed"
  | participantAdded .. => "participant added"
  | participantRemoved _ => "participant removed"
  | nodeRemovedWithParticipant .. => "node removed with participant"
  | nodeAdded .. => "node added"
  | nodeRemoved .. => "node removed"
  | associated .. => "endpoint associated"
  | dissociated .. => "endpoint dissociated"
  | deferred _ => "association deferred until endpoint is discovered"
  | reconciled .. => "participant entities reconciled"
  | prefsMissing _ => "no cache prefs stored; using defaults"
  | prefsUnreadable .. => "cache prefs unreadable; using defaults"

/-- The texts that name an endpoint. -/
def endpointFields (id : EndpointId) : List (String × String) :=
  [("gid", id.gid.text), ("kind", id.kind.text)]

/-- The texts that name a node of a participant. -/
def nodeFields (participant : Gid) (node : NodeName) : List (String × String) :=
  [("participant", participant.text), ("node", node.text)]

/-- The texts that say which endpoint met which node. -/
def associationFields (id : EndpointId) (participant : Gid) (node : NodeName) :
    List (String × String) :=
  endpointFields id ++
    [("participant", participant.text), ("node_namespace", node.ns), ("node_name", node.name)]

/-- The named texts of an event. -/
def fields : Event → List (String × String)
  | refused _ error node =>
    ("err", error.message) :: node.toList.map fun node => ("node", node.text)
  | endpointAdded id topic type => endpointFields id ++ [("topic", topic), ("ty", type)]
  | deferredApplied id => endpointFields id
  | endpointRemoved id topic => endpointFields id ++ [("topic", topic)]
  | participantAdded gid enclave => [("gid", gid.text), ("enclave", enclave)]
  | participantRemoved gid => [("gid", gid.text)]
  | nodeRemovedWithParticipant participant node => nodeFields participant node
  | nodeAdded participant node => nodeFields participant node
  | nodeRemoved participant node => nodeFields participant node
  | associated id participant node => associationFields id participant node
  | dissociated id participant node => associationFields id participant node
  | deferred id => endpointFields id
  | reconciled participant digest summary =>
    [("participant", participant.text), ("digest", digest.hex), ("summary", summary.outline)]
  | prefsMissing key => [("key", key)]
  | prefsUnreadable key reason => [("key", key), ("err", reason)]

end Event

end DiscoveryGraph
