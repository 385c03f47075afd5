import DiscoveryGraph.Endpoint
import DiscoveryGraph.NodeName

/-!
# The arena of nodes

Nodes are kept in numbered slots, and everything else refers to a node by its slot. An index from
names to slots answers queries by name; it also remembers, among nodes of the same name, the order
in which they were created, which slot numbers do not tell once slots are used again.
-/

namespace DiscoveryGraph

open Std (ExtTreeMap ExtTreeSet)

/-- What becomes of a slot that is given back. -/
inductive SlotPolicy where
  /-- It is handed out again, the one given back last first. -/
  | recycle
  /-- It is never handed out again. -/
  | discard
deriving DecidableEq

/-- The supply of slots. -/
structure SlotPool where
  /-- What becomes of a slot that is given back. -/
  policy : SlotPolicy
  /-- The first slot that has never been handed out. -/
  next : NodeKey
  /-- The slots to hand out again, in that order. -/
  free : List NodeKey
deriving DecidableEq

namespace SlotPool

/-- No slot has been handed out yet. -/
def fresh (policy : SlotPolicy) : SlotPool :=
  { policy, next := 0, free := [] }

/-- The slot that is handed out now, and the supply that is left. -/
def take (pool : SlotPool) : NodeKey × SlotPool :=
  match pool.free with
  | key :: rest => (key, { pool with free := rest })
  | [] => (pool.next, { pool with next := pool.next + 1 })

/-- A slot is given back. -/
def release (pool : SlotPool) (key : NodeKey) : SlotPool :=
  match pool.policy with
  | .recycle => { pool with free := key :: pool.free }
  | .discard => pool

end SlotPool

/-- A node: who hosts it, its name, and the endpoints that belong to it. -/
structure NodeRecord where
  participant : Gid
  name : NodeName
  endpoints : ExtTreeSet EndpointId
deriving DecidableEq

namespace NodeRecord

/-- A new node has no endpoints. -/
def bare (participant : Gid) (name : NodeName) : NodeRecord :=
  { participant, name, endpoints := ∅ }

/-- The identifiers of the endpoints of one kind, in ascending order. -/
def listed (node : NodeRecord) (kind : EndpointKind) : List Gid :=
  (node.endpoints.toList.filter (·.kind = kind)).map (·.gid)

end NodeRecord

/-- The nodes of all participants. -/
structure NodeArena where
  slots : SlotPool
  records : ExtTreeMap NodeKey NodeRecord
  /-- The slots of the nodes of each name, in the order of their creation. -/
  byName : ExtTreeMap NodeName (List NodeKey)
deriving DecidableEq

namespace NodeArena

/-- An arena without nodes. -/
def empty (policy : SlotPolicy) : NodeArena :=
  { slots := .fresh policy, records := ∅, byName := ∅ }

/-- The node in a slot. -/
def get? (arena : NodeArena) (key : NodeKey) : Option NodeRecord :=
  arena.records[key]?

/-- The slots of the nodes called `name`, in the order of their creation. -/
def keysOf (arena : NodeArena) (name : NodeName) : List NodeKey :=
  arena.byName.getD name []

/-- A new node, and the slot that it was given. -/
def insert (arena : NodeArena) (participant : Gid) (name : NodeName) : NodeKey × NodeArena :=
  let (key, slots) := arena.slots.take
  (key, {
    slots
    records := arena.records.insert key (.bare participant name)
    byName := arena.byName.insert name (arena.keysOf name ++ [key]) })

/-- The index without one slot. A name without slots has no entry. -/
def unindex (byName : ExtTreeMap NodeName (List NodeKey)) (name : NodeName) (key : NodeKey) :
    ExtTreeMap NodeName (List NodeKey) :=
  match (byName.getD name []).filter (· ≠ key) with
  | [] => byName.erase name
  | keys => byName.insert name keys

/-- The node in a slot leaves the arena, and the slot is given back. -/
def erase (arena : NodeArena) (key : NodeKey) : NodeArena :=
  match arena.get? key with
  | none => arena
  | some node => {
      slots := arena.slots.release key
      records := arena.records.erase key
      byName := unindex arena.byName node.name key }

/-- The endpoint becomes one of the node's. -/
def attach (arena : NodeArena) (key : NodeKey) (id : EndpointId) : NodeArena :=
  { arena with records :=
      arena.records.modify key fun node => { node with endpoints := node.endpoints.insert id } }

/-- The endpoint is no longer one of the node's. -/
def detach (arena : NodeArena) (key : NodeKey) (id : EndpointId) : NodeArena :=
  { arena with records :=
      arena.records.modify key fun node => { node with endpoints := node.endpoints.erase id } }

/-- The slot of the node called `name` that `participant` hosts. -/
def find? (arena : NodeArena) (participant : Gid) (name : NodeName) : Option NodeKey :=
  (arena.keysOf name).find? fun key => (arena.get? key).any (·.participant = participant)

/-- The nodes called `name`, under whichever participant, in the order of their creation. -/
def called (arena : NodeArena) (name : NodeName) : List NodeRecord :=
  (arena.keysOf name).filterMap arena.get?

/-- All nodes, ordered by name; nodes of the same name are in the order of their creation. -/
def listing (arena : NodeArena) : List NodeRecord :=
  arena.byName.toList.flatMap fun entry => entry.2.filterMap arena.get?

/-- How many nodes there are. -/
def size (arena : NodeArena) : Nat :=
  arena.records.size

end NodeArena

end DiscoveryGraph
