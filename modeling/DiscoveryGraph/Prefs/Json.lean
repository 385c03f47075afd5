import DiscoveryGraph.Json.Value
import DiscoveryGraph.Json.Writer
import DiscoveryGraph.Prefs

/-!
# Stored preferences

Preferences are stored as JSON. On reading, whatever is missing takes its standard value.
-/

namespace DiscoveryGraph

/-! ## Writing -/

/-- The stored form of the merging preferences. -/
def ReconcilePrefs.toJson (prefs : ReconcilePrefs) (depth : Nat) : Bytes :=
  Json.writeRecord depth
    [("defer_unknown_endpoints", fun _ => Json.writeBoolean prefs.deferUnknownEndpoints)]

/-- The stored form of the naming preferences. -/
def DemanglePrefs.toJson (prefs : DemanglePrefs) (depth : Nat) : Bytes :=
  Json.writeRecord depth
    [("topic_prefixes", fun depth =>
        Json.writeList (fun _ => Json.writeText) depth prefs.topicPrefixes),
     ("hide_unprefixed", fun _ => Json.writeBoolean prefs.hideUnprefixed)]

/-- The stored form of preferences. -/
def Prefs.toJson (prefs : Prefs) (depth : Nat) : Bytes :=
  Json.writeRecord depth
    [("reconcile", prefs.reconcile.toJson), ("demangle", prefs.demangle.toJson)]

/-! ## Reading -/

/-- What has been read of the merging preferences. -/
structure ReconcilePrefs.Draft where
  deferUnknownEndpoints : Option Bool := none

/-- What has been read of the naming preferences. -/
structure DemanglePrefs.Draft where
  topicPrefixes : Option (List String) := none
  hideUnprefixed : Option Bool := none

/-- What has been read of preferences. -/
structure Prefs.Draft where
  reconcile : Option ReconcilePrefs := none
  demangle : Option DemanglePrefs := none

/-- The merging preferences, completed. -/
def ReconcilePrefs.Draft.finish (d : Draft) : ReconcilePrefs where
  deferUnknownEndpoints := d.deferUnknownEndpoints.getD standard.deferUnknownEndpoints

/-- The naming preferences, completed. -/
def DemanglePrefs.Draft.finish (d : Draft) : DemanglePrefs where
  topicPrefixes := d.topicPrefixes.getD standard.topicPrefixes
  hideUnprefixed := d.hideUnprefixed.getD standard.hideUnprefixed

/-- The preferences, completed. -/
def Prefs.Draft.finish (d : Draft) : Prefs where
  reconcile := d.reconcile.getD .standard
  demangle := d.demangle.getD .standard

namespace Json.Reader

/-- A record all of whose fields have standard values. -/
def lenientRecord {σ α : Type} (name : String) (fields : List (Field Reader σ)) (blank : σ)
    (finish : σ → α) : Reader α :=
  record name fields (fun _ => none) blank fun draft => .ok (finish draft)

/-- Merging preferences. -/
def reconcilePrefs : Reader ReconcilePrefs :=
  lenientRecord "ReconcilePrefs"
    [⟨"defer_unknown_endpoints", (·.deferUnknownEndpoints.isSome),
      fun d => do return { d with deferUnknownEndpoints := some (← boolean) }⟩]
    {} ReconcilePrefs.Draft.finish

/-- Naming preferences. -/
def demanglePrefs : Reader DemanglePrefs :=
  lenientRecord "DemanglePrefs"
    [⟨"topic_prefixes", (·.topicPrefixes.isSome),
      fun d => do return { d with topicPrefixes := some (← list text) }⟩,
     ⟨"hide_unprefixed", (·.hideUnprefixed.isSome),
      fun d => do return { d with hideUnprefixed := some (← boolean) }⟩]
    {} DemanglePrefs.Draft.finish

/-- Preferences. -/
def prefs : Reader Prefs :=
  lenientRecord "CachePrefs"
    [⟨"reconcile", (·.reconcile.isSome),
      fun d => do return { d with reconcile := some (← reconcilePrefs) }⟩,
     ⟨"demangle", (·.demangle.isSome),
      fun d => do return { d with demangle := some (← demanglePrefs) }⟩]
    {} Prefs.Draft.finish

end Json.Reader

end DiscoveryGraph
