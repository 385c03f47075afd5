import DiscoveryGraph.Graph.Command
import DiscoveryGraph.Graph.Dump
import DiscoveryGraph.Graph.View

/-!
# Queries and sessions

Everything that can be asked of a graph without changing it, as one type of query. A session is a
sequence of commands and queries, and what is shown in its course is all that can be learned about
the graph from outside. The structural listing is not among the queries: it shows slot numbers.
-/

namespace DiscoveryGraph

/-- What can be asked without changing anything. -/
inductive Query where
  | endpoint (id : EndpointId)
  | endpointCount (kind : EndpointKind) (topic : String)
  | nodeNames
  | nodeNamesWithEnclaves
  | nodeCount
  | pendingCount
  | snapshot (gid : Gid)
  | namesAndTypes (demangleTopic demangleType : Demangler)
  | namesAndTypesByNode (kind : EndpointKind) (node : NodeName)
      (demangleTopic demangleType : Demangler)
  | infoByTopic (kind : EndpointKind) (topic : String) (demangleType : Demangler)
  | prefs
  | dump

/-- What is shown of an endpoint. The slot of its node is not. -/
structure EndpointFacts where
  id : EndpointId
  topic : String
  type : String
  isAssociated : Bool
deriving DecidableEq

/-- What is known of an endpoint, as far as it is shown. -/
def Endpoint.facts (id : EndpointId) (endpoint : Endpoint) : EndpointFacts where
  id := id
  topic := endpoint.topic
  type := endpoint.type
  isAssociated := endpoint.isAssociated

/-- The answer to a query. -/
inductive Reply where
  | endpoint (facts : Option EndpointFacts)
  | count (count : Nat)
  | names (names : List NodeName)
  | namesWithEnclaves (names : List (NodeName × String))
  | snapshot (snapshot : Option Snapshot)
  | topics (view : NamesAndTypes)
  | endpoints (endpoints : List TopicEndpoint)
  | prefs (prefs : Prefs)
  | text (text : String)
deriving DecidableEq

/-- A step of a session. -/
inductive Step where
  | command (command : Command)
  | query (query : Query)

/-- What is shown of a step. -/
inductive Shown where
  | outcome (result : Except GraphError Answer) (notified : Bool) (events : List Event)
  | reply (reply : Reply)

namespace Graph

/-- A query is answered. -/
def ask (g : Graph) : Query → Reply
  | .endpoint id => .endpoint ((g.endpoint? id).map (·.facts id))
  | .endpointCount kind topic => .count (g.endpointCount kind topic)
  | .nodeNames => .names g.nodeNames
  | .nodeNamesWithEnclaves => .namesWithEnclaves g.nodeNamesWithEnclaves
  | .nodeCount => .count g.nodeCount
  | .pendingCount => .count g.pendingCount
  | .snapshot gid => .snapshot (g.snapshot? gid)
  | .namesAndTypes demangleTopic demangleType =>
    .topics (g.namesAndTypes demangleTopic demangleType)
  | .namesAndTypesByNode kind node demangleTopic demangleType =>
    .topics (g.namesAndTypesByNode kind node demangleTopic demangleType)
  | .infoByTopic kind topic demangleType => .endpoints (g.infoByTopic kind topic demangleType)
  | .prefs => .prefs g.prefs
  | .dump => .text g.dump

/-- What is shown in the course of a session. -/
def session (g : Graph) : List Step → List Shown
  | [] => []
  | .command command :: steps =>
    let outcome := g.perform command
    .outcome outcome.result outcome.notified outcome.events :: outcome.graph.session steps
  | .query query :: steps => .reply (g.ask query) :: g.session steps

end Graph

end DiscoveryGraph
