import Std.Data.ExtTreeMap
import DiscoveryGraph.Bytes

/-!
# A tree of files

Directories and files below a root, each known by the names on the way to it. The operations fail
for the reasons that an operating system gives: a name on the way is missing, is a file, is too
long, or cannot be a name at all.
-/

namespace DiscoveryGraph

open Std (ExtTreeMap)

/-- Why an operation on files fails. -/
inductive FileError where
  | notFound
  | alreadyExists
  | notADirectory
  | isADirectory
  | nameTooLong
  | nullInName
  | device (reason : String)
deriving DecidableEq

/-- The wording of a failure. -/
def FileError.message : FileError → String
  | notFound => "No such file or directory (os error 2)"
  | alreadyExists => "File exists (os error 17)"
  | notADirectory => "Not a directory (os error 20)"
  | isADirectory => "Is a directory (os error 21)"
  | nameTooLong => "File name too long (os error 36)"
  | nullInName => "file name contained an unexpected NUL byte"
  | device reason => reason

/-- The names on the way from the root. -/
abbrev FilePath := List String

namespace FilePath

/-- The names between slashes. Empty ones, and dots that stand for the place itself, are left
out. -/
def ofText (s : String) : FilePath :=
  (s.splitOn "/").filter fun name => name ≠ "" && name ≠ "."

/-- Whether the text of a path starts at the root. -/
def isAbsolute (s : String) : Bool :=
  s.toList.head? = some '/'

end FilePath

/-- What a name can stand for. -/
inductive FileEntry where
  | file (content : Bytes)
  | directory
deriving DecidableEq

/-- Everything below a root, which itself is a directory. -/
structure FileTree where
  entries : ExtTreeMap FilePath FileEntry
deriving DecidableEq

namespace FileTree

/-- A root with nothing below it. -/
def empty : FileTree :=
  { entries := ∅ }

/-- The largest number of octets in a name. -/
def longestName : Nat :=
  255

/-- What the names `todo` lead to from the directory `walked`. -/
def walk (tree : FileTree) (walked : FilePath) : FilePath → Except FileError FileEntry
  | [] => .ok .directory
  | name :: todo =>
    if longestName < name.utf8ByteSize then .error .nameTooLong
    else match tree.entries[walked ++ [name]]?, todo with
      | none, _ => .error .notFound
      | some entry, [] => .ok entry
      | some .directory, todo => tree.walk (walked ++ [name]) todo
      | some (.file _), _ => .error .notADirectory

/-- What a path stands for. -/
def find (tree : FileTree) (path : FilePath) : Except FileError FileEntry :=
  if path.any (·.contains '\x00') then .error .nullInName else tree.walk [] path

/-- Whether a path leads to a directory. -/
def isDirectory (tree : FileTree) (path : FilePath) : Bool :=
  match tree.find path with
  | .ok .directory => true
  | _ => false

/-- The content of a file. -/
def read (tree : FileTree) (path : FilePath) : Except FileError Bytes :=
  match tree.find path with
  | .ok (.file content) => .ok content
  | .ok .directory => .error .isADirectory
  | .error error => .error error

/-- A new entry in an existing directory. -/
def create (tree : FileTree) (path : FilePath) (entry : FileEntry) : Except FileError FileTree :=
  if tree.isDirectory path.dropLast then .ok { entries := tree.entries.insert path entry }
  else .error .notFound

/-- A file gets this content, and is created if need be. -/
def write (tree : FileTree) (path : FilePath) (content : Bytes) : Except FileError FileTree :=
  match tree.find path with
  | .ok (.file _) => .ok { entries := tree.entries.insert path (.file content) }
  | .ok .directory => .error .isADirectory
  | .error .notFound => tree.create path (.file content)
  | .error error => .error error

/-- A directory is created in an existing one. -/
def makeDirectory (tree : FileTree) (path : FilePath) : Except FileError FileTree :=
  match tree.find path with
  | .ok _ => .error .alreadyExists
  | .error .notFound => tree.create path .directory
  | .error error => .error error

/-- A directory whose creation has failed may be there already. -/
def acceptDirectory (tree : FileTree) (path : FilePath) :
    Except FileError FileTree → Except FileError FileTree
  | .ok made => .ok made
  | .error error => if tree.isDirectory path then .ok tree else .error error

/-- A directory is created, together with those that are missing on the way. The names are given
from the last to the first. -/
def ensureReversed (tree : FileTree) : List String → Except FileError FileTree
  | [] => .ok tree
  | name :: above =>
    let path := (name :: above).reverse
    match tree.makeDirectory path with
    | .error .notFound =>
      match tree.ensureReversed above with
      | .ok made => made.acceptDirectory path (made.makeDirectory path)
      | .error error => .error error
    | result => tree.acceptDirectory path result

/-- A directory is created, together with those that are missing on the way. -/
def ensureDirectory (tree : FileTree) (path : FilePath) : Except FileError FileTree :=
  tree.ensureReversed path.reverse

/-- A path and all that lies below it are removed. -/
def remove (tree : FileTree) (path : FilePath) : FileTree :=
  { entries := tree.entries.filter fun other _ => !path.isPrefixOf other }

/-- The text of every path, with a slash behind directories, in ascending order. -/
def listing (tree : FileTree) : List String :=
  let names := tree.entries.toList.map fun (path, entry) =>
    "/".intercalate path ++ if entry = .directory then "/" else ""
  names.mergeSort fun a b => a ≤ b

end FileTree

end DiscoveryGraph
