import DiscoveryGraph.Digest.Blake3
import DiscoveryGraph.Snapshot

/-!
# Digest of a snapshot

Two snapshots have the same digest when they list the same nodes in the same order, each with the
same set of readers and the same set of writers. The digest is the hash of a canonical octet
sequence: every text and every list stands behind its length, and lists of identifiers are sorted
and freed of repetitions first.
-/

namespace DiscoveryGraph

namespace Digest

/-- A length as eight octets, least significant first. -/
def length (n : Nat) : Bytes :=
  Bytes.littleEndian 8 n

/-- A text behind the number of its octets. -/
def text (s : String) : Bytes :=
  length (Bytes.ofText s).length ++ Bytes.ofText s

/-- A set of identifiers in ascending order, behind its size. -/
def gids (gids : List Gid) : Bytes :=
  let sorted := (Std.ExtTreeSet.ofList gids).toList
  length sorted.length ++ sorted.flatMap Gid.toBytes

/-- A node: its name, its readers, its writers. -/
def node (entry : NodeEntities) : Bytes :=
  text entry.node.ns ++ text entry.node.name ++ gids entry.readers ++ gids entry.writers

end Digest

namespace Snapshot

/-- The octets that are hashed. They begin with a word that sets them apart from the octets of
other digests. -/
def canonical (snapshot : Snapshot) : Bytes :=
  Bytes.ofText "participant:" ++ snapshot.gid.toBytes ++ Digest.length snapshot.nodes.length ++
    snapshot.nodes.flatMap Digest.node

/-- The digest of a snapshot, 32 octets. -/
def digest (snapshot : Snapshot) : Bytes :=
  Blake3.hash snapshot.canonical

end Snapshot

end DiscoveryGraph
