import DiscoveryGraph.Mismatch
import DiscoveryGraph.Snapshot

/-!
# Records read field by field

A record arrives as a sequence of named fields in any order. What has been read so far is kept in
a draft, and the draft becomes a record when no field is missing. How a value is read depends on
the format of the message, so the fields are stated over the reader of the format.
-/

namespace DiscoveryGraph

/-- A field of a record whose draft is a `σ`. -/
structure Field (m : Type → Type) (σ : Type) where
  name : String
  present : σ → Bool
  read : σ → m σ

/-- The value of a field that must not be missing. -/
def required {α : Type} (name : String) : Option α → Except Mismatch α
  | some value => .ok value
  | none => .error (.missingField name)

/-- What has been read of the name of a node. -/
structure NodeName.Draft where
  ns : Option String := none
  name : Option String := none

namespace NodeName.Draft

/-- The fields, in the order in which they are declared. -/
def fields {m : Type → Type} [Monad m] (text : m String) : List (Field m Draft) :=
  [⟨"namespace", (·.ns.isSome), fun d => do return { d with ns := some (← text) }⟩,
   ⟨"name", (·.name.isSome), fun d => do return { d with name := some (← text) }⟩]

/-- The name, if it is complete. -/
def finish (d : Draft) : Except Mismatch NodeName := do
  return { ns := ← required "namespace" d.ns, name := ← required "name" d.name }

end NodeName.Draft

/-- What has been read of a node. -/
structure NodeEntities.Draft where
  ns : Option String := none
  name : Option String := none
  readers : Option (List Gid) := none
  writers : Option (List Gid) := none

namespace NodeEntities.Draft

/-- The fields, in the order in which they are declared. -/
def fields {m : Type → Type} [Monad m] (text : m String) (gids : m (List Gid)) :
    List (Field m Draft) :=
  [⟨"namespace", (·.ns.isSome), fun d => do return { d with ns := some (← text) }⟩,
   ⟨"name", (·.name.isSome), fun d => do return { d with name := some (← text) }⟩,
   ⟨"readers", (·.readers.isSome), fun d => do return { d with readers := some (← gids) }⟩,
   ⟨"writers", (·.writers.isSome), fun d => do return { d with writers := some (← gids) }⟩]

/-- The node, if it is complete. -/
def finish (d : Draft) : Except Mismatch NodeEntities := do
  let ns ← required "namespace" d.ns
  let name ← required "name" d.name
  return {
    node := { ns, name }
    readers := ← required "readers" d.readers
    writers := ← required "writers" d.writers }

end NodeEntities.Draft

/-- What has been read of a snapshot. -/
structure Snapshot.Draft where
  gid : Option Gid := none
  nodes : Option (List NodeEntities) := none

namespace Snapshot.Draft

/-- The fields, in the order in which they are declared. -/
def fields {m : Type → Type} [Monad m] (gid : m Gid) (nodes : m (List NodeEntities)) :
    List (Field m Draft) :=
  [⟨"gid", (·.gid.isSome), fun d => do return { d with gid := some (← gid) }⟩,
   ⟨"nodes", (·.nodes.isSome), fun d => do return { d with nodes := some (← nodes) }⟩]

/-- The snapshot, if it is complete. -/
def finish (d : Draft) : Except Mismatch Snapshot := do
  return { gid := ← required "gid" d.gid, nodes := ← required "nodes" d.nodes }

end Snapshot.Draft

/-- What an identifier is expected to be. -/
def Gid.expectation : String :=
  s!"a byte string of exactly {gidWidth} bytes"

end DiscoveryGraph
