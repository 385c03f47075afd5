import DiscoveryGraph.Demangle
import DiscoveryGraph.Graph

/-!
# Views for observers

Topics with their types, and the endpoints on a topic, as observers see them. Nothing here is
stored: the views are computed from the graph with the demanglers that the observer brings along.
-/

namespace DiscoveryGraph

open Std (ExtTreeMap ExtTreeSet)

/-- The types carried on each visible topic. -/
abbrev NamesAndTypes := ExtTreeMap String (ExtTreeSet String)

/-- An endpoint on a topic, and the node that it belongs to. -/
structure TopicEndpoint where
  /-- The node, or a placeholder when the endpoint belongs to none. -/
  node : NodeName
  /-- The type as observers see it. -/
  type : String
  id : EndpointId
deriving DecidableEq

/-- What stands in for the node of an endpoint that belongs to none. -/
def NodeName.unknown : NodeName :=
  { ns := "_NODE_NAMESPACE_UNKNOWN_", name := "_NODE_NAME_UNKNOWN_" }

namespace NamesAndTypes

/-- One more type on a topic. A hidden topic is left out. -/
def record (view : NamesAndTypes) (topic type : String) : NamesAndTypes :=
  if topic.isEmpty then view else view.insert topic ((view.getD topic ∅).insert type)

/-- The topics and types of some endpoints. -/
def ofEndpoints (demangleTopic demangleType : Demangler) (endpoints : List Endpoint) :
    NamesAndTypes :=
  endpoints.foldl (fun view endpoint =>
    view.record (demangleTopic endpoint.topic) (demangleType endpoint.type)) ∅

/-- The topics with their types, both in ascending order. -/
def toLists (view : NamesAndTypes) : List (String × List String) :=
  view.toList.map fun entry => (entry.1, entry.2.toList)

end NamesAndTypes

namespace Graph

/-- Every visible topic with its types. -/
def namesAndTypes (g : Graph) (demangleTopic demangleType : Demangler) : NamesAndTypes :=
  .ofEndpoints demangleTopic demangleType (g.endpoints.toList.map (·.2))

/-- The topics and types of one kind at the nodes called `node`, under whichever participant. -/
def namesAndTypesByNode (g : Graph) (kind : EndpointKind) (node : NodeName)
    (demangleTopic demangleType : Demangler) : NamesAndTypes :=
  .ofEndpoints demangleTopic demangleType <|
    (g.nodes.called node).flatMap fun record =>
      (record.listed kind).filterMap fun gid => g.endpoints[(⟨kind, gid⟩ : EndpointId)]?

/-- The node that an endpoint belongs to, or the placeholder. -/
def ownerName (g : Graph) (endpoint : Endpoint) : NodeName :=
  ((endpoint.link.bind g.nodes.get?).map (·.name)).getD .unknown

/-- The endpoints of one kind whose raw topic name is `topic`, in ascending order. -/
def infoByTopic (g : Graph) (kind : EndpointKind) (topic : String) (demangleType : Demangler) :
    List TopicEndpoint :=
  (g.endpointsOn kind topic).map fun entry =>
    { node := g.ownerName entry.2, type := demangleType entry.2.type, id := entry.1 }

end Graph

end DiscoveryGraph
