import DiscoveryGraph.Graph
import DiscoveryGraph.Text.Outline

/-!
# The structural listing of a graph

Everything that the graph holds, down to the slots of the nodes. This is the one place where slot
numbers can be seen.
-/

namespace DiscoveryGraph

open Text (Outline)

/-- A slot. -/
def NodeKey.outline (key : NodeKey) : Outline :=
  .case "NodeKey" [.number key]

/-- Namespace and name. -/
def NodeName.outline (node : NodeName) : Outline :=
  .record "NodeName" [("namespace", .text node.ns), ("name", .text node.name)]

/-- An endpoint with its identifier. -/
def Endpoint.outline (id : EndpointId) (endpoint : Endpoint) : Outline :=
  .record "EndpointRecord" [
    ("gid", .word id.gid.outline),
    ("topic_name", .text endpoint.topic),
    ("type_name", .text endpoint.type),
    ("kind", .word id.kind.caseName),
    ("node", match endpoint.link with
      | none => .word "None"
      | some key => .case "Some" [NodeKey.outline key])]

/-- A participant. -/
def Participant.outline (participant : Participant) : Outline :=
  .record "ParticipantRecord" [
    ("enclave", .text participant.enclave),
    ("nodes", .list (participant.nodes.map NodeKey.outline))]

/-- A node. -/
def NodeRecord.outline (node : NodeRecord) : Outline :=
  .record "NodeRecord" [
    ("participant", .word node.participant.outline),
    ("name", node.name.outline),
    ("readers", .set ((node.listed .reader).map fun gid => .word gid.outline)),
    ("writers", .set ((node.listed .writer).map fun gid => .word gid.outline))]

/-- The arena: the occupied slots, then the index of names. -/
def NodeArena.outline (arena : NodeArena) : Outline :=
  .record "NodeArena" [
    ("nodes", .table (arena.records.toList.map fun entry =>
      (.number entry.1, entry.2.outline))),
    ("by_name", .table (arena.byName.toList.map fun entry =>
      (entry.1.outline, .list (entry.2.map NodeKey.outline))))]

/-- The preferences. -/
def Prefs.outline (prefs : Prefs) : Outline :=
  .record "CachePrefs" [
    ("reconcile", .record "ReconcilePrefs" [
      ("defer_unknown_endpoints", .truth prefs.reconcile.deferUnknownEndpoints)]),
    ("demangle", .record "DemanglePrefs" [
      ("topic_prefixes", .list (prefs.demangle.topicPrefixes.map .text)),
      ("hide_unprefixed", .truth prefs.demangle.hideUnprefixed)])]

namespace Graph

/-- The endpoints of one kind. -/
def endpointsOutline (g : Graph) (kind : EndpointKind) : Outline :=
  .table ((g.endpointsOf kind).map fun entry =>
    (.word entry.1.gid.outline, entry.2.outline entry.1))

/-- The listing of the whole graph. -/
def outline (g : Graph) : Outline :=
  .record "GraphCache" [
    ("entities", .record "EntityTable" [
      ("readers", g.endpointsOutline .reader),
      ("writers", g.endpointsOutline .writer)]),
    ("participants", .table (g.participants.toList.map fun entry =>
      (.word entry.1.outline, entry.2.outline))),
    ("nodes", g.nodes.outline),
    ("pending", .table (g.pending.toList.map fun entry =>
      (.case "" [.word entry.1.kind.caseName, .word entry.1.gid.outline],
        NodeKey.outline entry.2))),
    ("prefs", g.prefs.outline),
    ("on_change", .truth g.watched)]

end Graph

end DiscoveryGraph
