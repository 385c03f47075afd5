import DiscoveryGraph.Settings.FileTree
import DiscoveryGraph.Text.Quoted

/-!
# Where settings are stored

A store keeps one sequence of octets under each key. There is one in memory, one in files, and one
that always fails.
-/

namespace DiscoveryGraph

open Std (ExtTreeMap)

/-- Why settings cannot be loaded or saved. -/
inductive SettingsError where
  | notFound
  | file (cause : FileError)
  | malformed (report : String)
  | other (reason : String)
deriving DecidableEq

/-- The wording of a failure. -/
def SettingsError.message : SettingsError → String
  | notFound => "not found"
  | file cause => s!"io error: {cause.message}"
  | malformed report => s!"serde error: {report}"
  | other reason => s!"other: {reason}"

/-- A place where settings are stored. -/
class SettingsStore (σ : Type) where
  load : σ → String → Except SettingsError Bytes
  /-- Something is stored under a key. The store may have changed even where this fails. -/
  save : σ → String → Bytes → Except SettingsError Unit × σ

/-- A store in memory. -/
structure MemoryStore where
  blobs : ExtTreeMap String Bytes
deriving DecidableEq

namespace MemoryStore

/-- A store that holds nothing. -/
def empty : MemoryStore :=
  { blobs := ∅ }

/-- What is stored under a key. -/
def load (store : MemoryStore) (key : String) : Except SettingsError Bytes :=
  match store.blobs[key]? with
  | some bs => .ok bs
  | none => .error .notFound

/-- Something is stored under a key. -/
def save (store : MemoryStore) (key : String) (bs : Bytes) :
    Except SettingsError Unit × MemoryStore :=
  (.ok (), { blobs := store.blobs.insert key bs })

instance : SettingsStore MemoryStore := ⟨load, save⟩

theorem load_save (store : MemoryStore) (key : String) (bs : Bytes) :
    (store.save key bs).2.load key = .ok bs := by
  rw [load, save, ExtTreeMap.getElem?_insert_self]

end MemoryStore

/-- A store that fails for one and the same reason. -/
structure FailingStore where
  error : SettingsError
deriving DecidableEq

instance : SettingsStore FailingStore where
  load store _ := .error store.error
  save store _ _ := (.error store.error, store)

/-- A store that keeps each key in a file of its own, all in one directory. -/
structure FileStore where
  base : FilePath
  tree : FileTree
deriving DecidableEq

namespace FileStore

/-- Whether a key can be the name of a file. The others could lead out of the directory. -/
def isValidKey (key : String) : Bool :=
  key ≠ "" && key ≠ "." && key ≠ ".." && key.toList.all fun c => c ≠ '/' && c ≠ '\\'

/-- The file of a key. -/
def pathOf (store : FileStore) (key : String) : Except SettingsError FilePath :=
  if isValidKey key then .ok (store.base ++ [key ++ ".json"])
  else .error (.other s!"invalid config key {Text.quoted key}")

/-- A store in this directory, which is created if need be. -/
def openAt (tree : FileTree) (base : FilePath) : Except SettingsError FileStore :=
  match tree.ensureDirectory base with
  | .ok tree => .ok { base, tree }
  | .error cause => .error (.file cause)

/-- The name of the directory among the settings of other programs. -/
def directoryName : String :=
  "dds-graph"

/-- The directory for settings: it lies in the one that the user has chosen for all settings, if
the choice is an absolute path, and otherwise in the usual place below the home directory. -/
def userBase (home : String) (configHome : Option String) : FilePath :=
  match configHome.filter FilePath.isAbsolute with
  | some chosen => FilePath.ofText chosen ++ [directoryName]
  | none => FilePath.ofText home ++ [".config", directoryName]

/-- What is stored under a key. -/
def load (store : FileStore) (key : String) : Except SettingsError Bytes := do
  let path ← store.pathOf key
  match store.tree.read path with
  | .ok bs => .ok bs
  | .error .notFound => .error .notFound
  | .error cause => .error (.file cause)

/-- Something is stored under a key. The directory is created again if it is gone. -/
def save (store : FileStore) (key : String) (bs : Bytes) : Except SettingsError Unit × FileStore :=
  match store.pathOf key with
  | .error error => (.error error, store)
  | .ok path =>
    match store.tree.ensureDirectory store.base with
    | .error cause => (.error (.file cause), store)
    | .ok tree =>
      match tree.write path bs with
      | .error cause => (.error (.file cause), { store with tree })
      | .ok tree => (.ok (), { store with tree })

instance : SettingsStore FileStore := ⟨load, save⟩

end FileStore

end DiscoveryGraph
