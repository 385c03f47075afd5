import DiscoveryGraph.Demangle
import DiscoveryGraph.Graph
import DiscoveryGraph.Prefs.Json
import DiscoveryGraph.Settings.Store

/-!
# Loading and saving settings

Settings are stored as JSON. A host whose stored preferences are damaged still gets a working
graph, with the standard preferences.
-/

namespace DiscoveryGraph.Settings

variable {σ α : Type} [SettingsStore σ]

/-- The value stored under a key. A key without content has no value. -/
def load (read : Json.Reader α) (store : σ) (key : String) : Except SettingsError (Option α) :=
  match SettingsStore.load store key with
  | .ok [] => .ok none
  | .ok bs =>
    match Json.Reader.readAll read bs with
    | .ok value => .ok (some value)
    | .error report => .error (.malformed report)
  | .error .notFound => .ok none
  | .error error => .error error

/-- A value, given by its stored form, is stored under a key. -/
def save (write : Nat → Bytes) (store : σ) (key : String) : Except SettingsError Unit × σ :=
  SettingsStore.save store key (write 0)

/-- The key of the preferences of a graph. -/
def prefsKey : String :=
  "graph_cache"

/-- The stored preferences, or the standard ones where there are none that can be read. -/
def loadPrefs (store : σ) : Prefs × List Event :=
  match load Json.Reader.prefs store prefsKey with
  | .ok (some prefs) => (prefs, [])
  | .ok none => (.standard, [.prefsMissing prefsKey])
  | .error error => (.standard, [.prefsUnreadable prefsKey error.message])

/-- A graph with the stored preferences, and the topic demangler that they describe. -/
def loadGraph (store : σ) : Graph × Demangler × List Event :=
  let (prefs, events) := loadPrefs store
  (.empty prefs, Demangler.topic prefs.demangle, events)

end DiscoveryGraph.Settings
