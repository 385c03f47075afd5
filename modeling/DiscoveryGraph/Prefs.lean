/-!
# Preferences

What a host can choose about a graph: how the reports of peers are merged, and which topic names
are shown to observers.
-/

namespace DiscoveryGraph

/-- How the report of a peer is merged. -/
structure ReconcilePrefs where
  /-- Keep an association whose endpoint is not announced yet, and apply it on the announcement.
  When this is off, such an association is dropped. -/
  deferUnknownEndpoints : Bool
deriving DecidableEq

/-- Which topic names are shown, and how. -/
structure DemanglePrefs where
  /-- The transport prefixes that mark a topic as visible. -/
  topicPrefixes : List String
  /-- Hide the topics that carry none of them. -/
  hideUnprefixed : Bool
deriving DecidableEq

/-- The preferences of a graph. -/
structure Prefs where
  reconcile : ReconcilePrefs
  demangle : DemanglePrefs
deriving DecidableEq

/-- Associations wait for their endpoints. -/
def ReconcilePrefs.standard : ReconcilePrefs :=
  { deferUnknownEndpoints := true }

/-- Topics under `rt` are shown, all others are hidden. -/
def DemanglePrefs.standard : DemanglePrefs :=
  { topicPrefixes := ["rt"], hideUnprefixed := true }

/-- What holds when nothing has been chosen. -/
def Prefs.standard : Prefs :=
  { reconcile := .standard, demangle := .standard }

instance : Inhabited ReconcilePrefs := ⟨.standard⟩
instance : Inhabited DemanglePrefs := ⟨.standard⟩
instance : Inhabited Prefs := ⟨.standard⟩

end DiscoveryGraph
