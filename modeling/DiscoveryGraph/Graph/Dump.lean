import DiscoveryGraph.Graph

/-!
# The readable dump

The whole graph as lines of text: the participants with their nodes and the endpoints of these,
then all endpoints with their topics.
-/

namespace DiscoveryGraph.Graph

/-- The lines of one node. -/
def nodeLines (node : NodeRecord) : List String :=
  s!"    {node.name.text}" ::
    ((node.listed .reader).map fun gid => s!"      reader: {gid.text}") ++
    ((node.listed .writer).map fun gid => s!"      writer: {gid.text}")

/-- The lines of one participant. -/
def participantLines (g : Graph) (gid : Gid) (participant : Participant) : List String :=
  [s!"  gid: {gid.text}", s!"  enclave: {participant.enclave}", "  nodes:"] ++
    (participant.nodes.filterMap g.nodes.get?).flatMap nodeLines

/-- The line of one endpoint. -/
def endpointLine (id : EndpointId) (endpoint : Endpoint) : String :=
  s!"  {id.text}: topic={endpoint.topic} type={endpoint.type}"

/-- The lines of the graph. -/
def dumpLines (g : Graph) : List String :=
  "Participants:" ::
    (g.participants.toList.flatMap fun entry => g.participantLines entry.1 entry.2) ++
    s!"Endpoints ({g.endpoints.size}):" ::
    g.endpoints.toList.map fun entry => endpointLine entry.1 entry.2

/-- The dump: every line ends with a line feed. -/
def dump (g : Graph) : String :=
  String.join (g.dumpLines.map (· ++ "\n"))

end DiscoveryGraph.Graph
