import DiscoveryGraph.Settings.Store
import Mathlib.Tactic.Conv

/-!
# Files in a directory

A file is written into a directory and read again. What a path leads to depends only on the entries
along it, so a new entry in a directory changes nothing for the directory itself.

* `FileTree.isDirectory_of_ensureDirectory`: a directory that was asked for is there.
* `FileTree.find_child`: what a name in a directory stands for.
* `FileTree.read_of_write`: what was written is read.
* `FileStore.load_of_save`: what was saved under a key is loaded.
* `FileStore.save_eq`: what saving under a key does to the files.
-/

namespace DiscoveryGraph

namespace FileTree

variable {tree tree' : FileTree} {walked todo path base : FilePath} {name : String}
  {content : Bytes}

/-! ## Paths -/

/-- The first name on the way decides where the way goes on. -/
theorem walk_cons (tree : FileTree) (walked : FilePath) (name : String) (todo : FilePath) :
    tree.walk walked (name :: todo) =
      if longestName < name.utf8ByteSize then .error .nameTooLong
      else match tree.entries[walked ++ [name]]? with
        | none => .error .notFound
        | some .directory => tree.walk (walked ++ [name]) todo
        | some (.file content) =>
          if todo = [] then .ok (.file content) else .error .notADirectory := by
  conv_lhs => unfold walk
  by_cases hlong : longestName < name.utf8ByteSize
  · rw [if_pos hlong, if_pos hlong]
  · rw [if_neg hlong, if_neg hlong]
    rcases tree.entries[walked ++ [name]]? with _ | _ | _ <;> cases todo <;> rfl

/-- The way to a directory leads through directories. -/
theorem walk_cons_eq_directory (h : tree.walk walked (name :: todo) = .ok .directory) :
    ¬ longestName < name.utf8ByteSize ∧ tree.entries[walked ++ [name]]? = some .directory ∧
      tree.walk (walked ++ [name]) todo = .ok .directory := by
  rw [walk_cons] at h
  by_cases hlong : longestName < name.utf8ByteSize
  · rw [if_pos hlong] at h
    cases h
  · rw [if_neg hlong] at h
    split at h
    · cases h
    · rename_i hentry
      exact ⟨hlong, hentry, h⟩
    · split at h <;> cases h

/-- From a directory, the way goes on with one more name. -/
theorem walk_concat (h : tree.walk walked todo = .ok .directory) (name : String) :
    tree.walk walked (todo ++ [name]) =
      if longestName < name.utf8ByteSize then .error .nameTooLong
      else match tree.entries[walked ++ todo ++ [name]]? with
        | none => .error .notFound
        | some entry => .ok entry := by
  induction todo generalizing walked with
  | nil =>
    rw [List.nil_append, List.append_nil, walk_cons]
    rcases tree.entries[walked ++ [name]]? with _ | _ | _ <;> rfl
  | cons first todo ih =>
    obtain ⟨hshort, hentry, hrest⟩ := walk_cons_eq_directory h
    have hnext := ih hrest
    rw [List.append_assoc walked] at hnext
    rw [List.cons_append, walk_cons, if_neg hshort, hentry]
    exact hnext

/-- A new entry further away than the way leads changes nothing on the way. -/
theorem walk_insert (path : FilePath) (entry : FileEntry)
    (h : walked.length + todo.length < path.length) :
    FileTree.walk ⟨tree.entries.insert path entry⟩ walked todo = tree.walk walked todo := by
  induction todo generalizing walked with
  | nil => rfl
  | cons name todo ih =>
    rw [List.length_cons] at h
    have hlength : (walked ++ [name]).length = walked.length + 1 := by
      rw [List.length_append, List.length_singleton]
    have hne : path ≠ walked ++ [name] := by
      rintro rfl
      omega
    have hentry : (tree.entries.insert path entry)[walked ++ [name]]? =
        tree.entries[walked ++ [name]]? := by
      rw [Std.ExtTreeMap.getElem?_insert, if_neg]
      rwa [Std.LawfulEqCmp.compare_eq_iff_eq]
    rw [walk_cons, walk_cons, hentry, ih (by omega)]

theorem isDirectory_iff_find :
    tree.isDirectory path = true ↔ tree.find path = .ok .directory := by
  rw [isDirectory]
  rcases tree.find path with _ | _ | _ <;> simp

theorem isDirectory_iff : tree.isDirectory path = true ↔
    path.any (·.contains '\x00') = false ∧ tree.walk [] path = .ok .directory := by
  rw [isDirectory_iff_find, find]
  cases path.any (·.contains '\x00') <;> simp

/-! ## Directories -/

/-- A name that can stand for something in a directory. -/
structure Plain (name : String) : Prop where
  short : ¬ longestName < name.utf8ByteSize
  noNull : name.contains '\x00' = false

/-- What a name in a directory stands for. -/
theorem find_child (hbase : tree.isDirectory base = true) (name : String) :
    tree.find (base ++ [name]) =
      if name.contains '\x00' then .error .nullInName
      else if longestName < name.utf8ByteSize then .error .nameTooLong
      else match tree.entries[base ++ [name]]? with
        | none => .error .notFound
        | some entry => .ok entry := by
  obtain ⟨hnull, hwalk⟩ := isDirectory_iff.mp hbase
  have hany : (base ++ [name]).any (·.contains '\x00') = name.contains '\x00' := by
    rw [List.any_append, hnull, Bool.false_or, List.any_cons, List.any_nil, Bool.or_false]
  rw [find, hany, walk_concat hwalk, List.nil_append]

theorem find_child_of_plain (hbase : tree.isDirectory base = true) (hname : Plain name) :
    tree.find (base ++ [name]) = match tree.entries[base ++ [name]]? with
      | none => .error .notFound
      | some entry => .ok entry := by
  rw [find_child hbase, hname.noNull, if_neg Bool.false_ne_true, if_neg hname.short]

/-- A name is refused for itself or not at all. -/
theorem plain_of_find (hbase : tree.isDirectory base = true)
    (hnull : tree.find (base ++ [name]) ≠ .error .nullInName)
    (hlong : tree.find (base ++ [name]) ≠ .error .nameTooLong) : Plain name := by
  rw [find_child hbase] at hnull hlong
  have hnoNull : name.contains '\x00' = false :=
    Bool.eq_false_iff.mpr fun h => hnull (if_pos h)
  rw [hnoNull, if_neg Bool.false_ne_true] at hlong
  exact ⟨fun h => hlong (if_pos h), hnoNull⟩

theorem isDirectory_insert (hbase : tree.isDirectory base = true) (name : String)
    (entry : FileEntry) :
    FileTree.isDirectory ⟨tree.entries.insert (base ++ [name]) entry⟩ base = true := by
  obtain ⟨hnull, hwalk⟩ := isDirectory_iff.mp hbase
  refine isDirectory_iff.mpr ⟨hnull, ?_⟩
  rw [walk_insert _ _ (by simp), hwalk]

/-- A new entry of a directory is found there. -/
theorem find_insert (hbase : tree.isDirectory base = true) (hname : Plain name)
    (entry : FileEntry) :
    FileTree.find ⟨tree.entries.insert (base ++ [name]) entry⟩ (base ++ [name]) = .ok entry := by
  rw [find_child_of_plain (isDirectory_insert hbase name entry) hname,
    Std.ExtTreeMap.getElem?_insert_self]

theorem isDirectory_of_makeDirectory (h : tree.makeDirectory (base ++ [name]) = .ok tree') :
    tree'.isDirectory (base ++ [name]) = true := by
  rw [makeDirectory] at h
  split at h
  · cases h
  · rename_i hfind
    rw [create, List.dropLast_concat] at h
    split at h
    · rename_i hbase
      have hname : Plain name := plain_of_find hbase (by simp [hfind]) (by simp [hfind])
      cases h
      exact isDirectory_iff_find.mpr (find_insert hbase hname .directory)
    · cases h
  · cases h

theorem isDirectory_of_acceptDirectory {result : Except FileError FileTree}
    (h : tree.acceptDirectory path result = .ok tree')
    (hresult : ∀ made, result = .ok made → made.isDirectory path = true) :
    tree'.isDirectory path = true := by
  cases result with
  | ok made =>
    cases h
    exact hresult _ rfl
  | error error =>
    rw [acceptDirectory] at h
    split at h
    · rename_i hthere
      cases h
      exact hthere
    · cases h

/-- A directory that was asked for is there. -/
theorem isDirectory_of_ensureDirectory (h : tree.ensureDirectory path = .ok tree') :
    tree'.isDirectory path = true := by
  rw [ensureDirectory] at h
  rw [← List.reverse_reverse path]
  generalize path.reverse = names at h
  cases names with
  | nil =>
    cases h
    rfl
  | cons name above =>
    rw [List.reverse_cons]
    rw [ensureReversed, List.reverse_cons] at h
    split at h
    · split at h
      · exact isDirectory_of_acceptDirectory h fun _ => isDirectory_of_makeDirectory
      · cases h
    · exact isDirectory_of_acceptDirectory h fun _ => isDirectory_of_makeDirectory

/-- A directory that is there already stays what it is. -/
theorem ensureDirectory_of_isDirectory (h : tree.isDirectory path = true) :
    tree.ensureDirectory path = .ok tree := by
  have hmake : tree.makeDirectory path = .error .alreadyExists := by
    rw [makeDirectory, isDirectory_iff_find.mp h]
  rw [ensureDirectory]
  rw [← List.reverse_reverse path] at hmake h
  generalize path.reverse = names at h hmake
  cases names with
  | nil => rfl
  | cons name above =>
    rw [ensureReversed, hmake]
    exact if_pos h

/-! ## Files -/

/-- A file can be written under a name that does not stand for a directory. -/
theorem write_child (hbase : tree.isDirectory base = true) (hname : Plain name)
    (hfile : tree.isDirectory (base ++ [name]) = false) (content : Bytes) :
    tree.write (base ++ [name]) content =
      .ok ⟨tree.entries.insert (base ++ [name]) (.file content)⟩ := by
  have hcreate : tree.create (base ++ [name]) (.file content) =
      .ok ⟨tree.entries.insert (base ++ [name]) (.file content)⟩ := by
    rw [create, List.dropLast_concat, if_pos hbase]
  rw [isDirectory, find_child_of_plain hbase hname] at hfile
  rw [write, find_child_of_plain hbase hname, hcreate]
  generalize tree.entries[base ++ [name]]? = entry? at hfile ⊢
  rcases entry? with _ | _ | _
  · rfl
  · rfl
  · cases hfile

/-- A file that was written is the only entry that is new. -/
theorem eq_insert_of_write (h : tree.write path content = .ok tree') :
    tree' = ⟨tree.entries.insert path (.file content)⟩ := by
  rw [write] at h
  split at h
  · cases h
    rfl
  · cases h
  · rw [create] at h
    split at h
    · cases h
      rfl
    · cases h
  · cases h

theorem plain_of_write (hbase : tree.isDirectory base = true)
    (h : tree.write (base ++ [name]) content = .ok tree') : Plain name := by
  refine plain_of_find hbase ?_ ?_ <;>
  · intro hfind
    rw [write, hfind] at h
    cases h

/-- What was written is read. -/
theorem read_of_write (hbase : tree.isDirectory base = true)
    (h : tree.write (base ++ [name]) content = .ok tree') :
    tree'.read (base ++ [name]) = .ok content := by
  rw [eq_insert_of_write h, read, find_insert hbase (plain_of_write hbase h)]

end FileTree

namespace FileStore

variable {store store' : FileStore} {key : String} {bs : Bytes}

/-- The file in which a key is kept. -/
def fileOf (store : FileStore) (key : String) : FilePath :=
  store.base ++ [key ++ ".json"]

theorem pathOf_eq (hkey : isValidKey key = true) (store : FileStore) :
    store.pathOf key = .ok (store.fileOf key) :=
  if_pos hkey

/-- Whatever was saved was written into the directory of the store. -/
theorem exists_of_save (h : store.save key bs = (.ok (), store')) :
    isValidKey key = true ∧ store'.base = store.base ∧
      ∃ tree, store.tree.ensureDirectory store.base = .ok tree ∧
        tree.write (store.fileOf key) bs = .ok store'.tree := by
  rw [save] at h
  split at h
  · cases h
  · rename_i path hpath
    rw [pathOf] at hpath
    split at hpath
    · rename_i hkey
      cases hpath
      split at h
      · cases h
      · rename_i tree hensure
        split at h
        · cases h
        · rename_i hwrite
          cases h
          exact ⟨hkey, rfl, tree, hensure, hwrite⟩
    · cases hpath

/-- What was saved under a key is loaded. -/
theorem load_of_save (h : store.save key bs = (.ok (), store')) : store'.load key = .ok bs := by
  obtain ⟨hkey, hbase, tree, hensure, hwrite⟩ := exists_of_save h
  have hread : store'.tree.read (store'.fileOf key) = .ok bs := by
    rw [fileOf, hbase]
    exact FileTree.read_of_write (FileTree.isDirectory_of_ensureDirectory hensure) hwrite
  simp only [load, pathOf_eq hkey, hread, bind, Except.bind]

/-- The directory of a store stays as it is when a store is opened there again. -/
theorem openAt_of_save (h : store.save key bs = (.ok (), store')) :
    openAt store'.tree store'.base = .ok store' := by
  obtain ⟨-, hbase, tree, hensure, hwrite⟩ := exists_of_save h
  have hthere : store'.tree.isDirectory store'.base = true := by
    rw [hbase, FileTree.eq_insert_of_write hwrite]
    exact FileTree.isDirectory_insert (FileTree.isDirectory_of_ensureDirectory hensure) _ _
  rw [openAt, FileTree.ensureDirectory_of_isDirectory hthere]

/-- A key can be saved if a file of its name can be written. -/
theorem save_eq (hbase : store.tree.isDirectory store.base = true)
    (hkey : isValidKey key = true) (hname : FileTree.Plain (key ++ ".json"))
    (hfile : store.tree.isDirectory (store.fileOf key) = false) (bs : Bytes) :
    store.save key bs = (.ok (), { store with
      tree := ⟨store.tree.entries.insert (store.fileOf key) (.file bs)⟩ }) := by
  rw [save, pathOf_eq hkey, FileTree.ensureDirectory_of_isDirectory hbase]
  dsimp only
  rw [fileOf, FileTree.write_child hbase hname hfile]

/-- The directory of a store that was opened is there. -/
theorem isDirectory_of_openAt {tree : FileTree} {base : FilePath}
    (h : openAt tree base = .ok store) :
    store.base = base ∧ store.tree.isDirectory base = true := by
  rw [openAt] at h
  split at h
  · rename_i hensure
    cases h
    exact ⟨rfl, FileTree.isDirectory_of_ensureDirectory hensure⟩
  · cases h

end FileStore

end DiscoveryGraph
