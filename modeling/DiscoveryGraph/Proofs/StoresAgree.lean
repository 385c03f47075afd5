import DiscoveryGraph.Proofs.Files
import Mathlib.Data.List.Basic
import Mathlib.Data.List.Induction

/-!
# A store in files answers like one in memory

A store is called again and again, to save and to load. A key that could lead out of the directory
is refused and leaves the files as they are. All other keys have files of their own, directly in
the directory, as long as these can have their names. Calls under such keys have the same answers
as if everything was kept in memory, whatever other calls are made in between.

* `SettingsStore.transcript`: a series of calls with their answers.
* `lastSaved`: what was saved last under a key.
* `FileStore.Mirrors`: the files hold what the memory holds, and nothing else has changed.
* `FileStore.transcript_eq`: the answers of a store in files are those of a store in memory.
-/

namespace DiscoveryGraph

/-! ## Calls -/

/-- A call to a store. -/
inductive SettingsCall where
  | save (key : String) (content : Bytes)
  | load (key : String)
deriving DecidableEq

/-- The key of a call. -/
def SettingsCall.key : SettingsCall → String
  | save key _ => key
  | load key => key

/-- The answer to a call: the content that was loaded, and nothing for content that was saved. -/
abbrev SettingsAnswer := Except SettingsError (Option Bytes)

namespace SettingsStore

variable {σ : Type} [SettingsStore σ]

/-- The answer to a call, and the store afterwards. -/
def perform (store : σ) : SettingsCall → SettingsAnswer × σ
  | .save key content =>
    ((SettingsStore.save store key content).1.map fun _ => none,
      (SettingsStore.save store key content).2)
  | .load key => ((SettingsStore.load store key).map some, store)

/-- A series of calls with their answers. -/
def transcript (store : σ) : List SettingsCall → List (SettingsCall × SettingsAnswer)
  | [] => []
  | call :: calls => (call, (perform store call).1) :: transcript (perform store call).2 calls

/-- The store after a series of calls. -/
def after (store : σ) (calls : List SettingsCall) : σ :=
  calls.foldl (fun store call => (perform store call).2) store

/-- Every entry of a transcript is the answer of the store to one call after those before it. -/
theorem exists_of_mem_transcript {store : σ} {calls : List SettingsCall}
    {entry : SettingsCall × SettingsAnswer} (h : entry ∈ transcript store calls) :
    ∃ before, entry.2 = (perform (after store before) entry.1).1 := by
  induction calls generalizing store with
  | nil => cases h
  | cons call calls ih =>
    rcases List.mem_cons.mp h with rfl | hrest
    · exact ⟨[], rfl⟩
    · obtain ⟨before, hbefore⟩ := ih hrest
      exact ⟨call :: before, hbefore⟩

end SettingsStore

open SettingsStore

/-- What a call saves under a key. -/
def SettingsCall.saved? (key : String) : SettingsCall → Option Bytes
  | save other content => if other = key then some content else none
  | load _ => none

/-- What was saved last under a key. -/
def lastSaved (key : String) (calls : List SettingsCall) : Option Bytes :=
  calls.reverse.findSome? (·.saved? key)

theorem lastSaved_concat (key : String) (calls : List SettingsCall) (call : SettingsCall) :
    lastSaved key (calls ++ [call]) = (call.saved? key).or (lastSaved key calls) := by
  rw [lastSaved, List.reverse_append, List.reverse_singleton, List.singleton_append,
    List.findSome?_cons]
  cases call.saved? key <;> rfl

/-- Calls under other keys do not count. -/
theorem lastSaved_filter {key : String} (keeps : String → Bool) (hkey : keeps key = true)
    (calls : List SettingsCall) :
    lastSaved key (calls.filter fun call => keeps call.key) = lastSaved key calls := by
  induction calls using List.reverseRecOn with
  | nil => rfl
  | append_singleton calls call ih =>
    rw [List.filter_append, List.filter_singleton, lastSaved_concat]
    cases hkeeps : keeps call.key with
    | true => rw [cond_true, lastSaved_concat, ih]
    | false =>
      have hother : call.saved? key = none := by
        cases call with
        | load _ => rfl
        | save other content =>
          refine if_neg ?_
          rintro rfl
          rw [SettingsCall.key, hkey] at hkeeps
          cases hkeeps
      rw [cond_false, List.append_nil, ih, hother, Option.none_or]

namespace MemoryStore

/-- The memory holds what was saved last. -/
theorem getElem?_after (calls : List SettingsCall) (key : String) :
    (after empty calls).blobs[key]? = lastSaved key calls := by
  induction calls using List.reverseRecOn with
  | nil => exact Std.ExtTreeMap.getElem?_empty
  | append_singleton calls call ih =>
    rw [lastSaved_concat, ← ih, after, List.foldl_append]
    cases call with
    | load _ => rfl
    | save other content =>
      have hinsert : (perform (after empty calls) (.save other content)).2.blobs[key]? =
          ((after empty calls).blobs.insert other content)[key]? := rfl
      rw [List.foldl_cons, List.foldl_nil, ← after, hinsert, Std.ExtTreeMap.getElem?_insert,
        SettingsCall.saved?]
      simp only [Std.LawfulEqCmp.compare_eq_iff_eq]
      split <;> rfl

end MemoryStore

/-! ## Keys -/

namespace FileStore

/-- The key could lead out of the directory, or it is no name at all. -/
def Misnamed (key : String) : Prop :=
  key ∈ ["", ".", ".."] ∨ '/' ∈ key.toList ∨ '\\' ∈ key.toList

/-- The key has a file of its own. -/
def Names (key : String) : Prop :=
  ¬ Misnamed key ∧ '\x00' ∉ key.toList ∧ (key ++ ".json").utf8ByteSize ≤ FileTree.longestName

instance : DecidablePred Misnamed := fun _ => inferInstanceAs (Decidable (_ ∨ _))

instance : DecidablePred Names := fun _ => inferInstanceAs (Decidable (_ ∧ _))

variable {store : FileStore} {key other : String} {content : Bytes}

theorem isValidKey_eq_false_iff : isValidKey key = false ↔ Misnamed key := by
  rw [← Bool.not_eq_true, isValidKey, Misnamed]
  simp only [Bool.and_eq_true, List.all_eq_true, decide_eq_true_eq, List.mem_cons,
    List.not_mem_nil, or_false]
  constructor
  · intro h
    by_contra hnone
    simp only [not_or] at hnone
    obtain ⟨⟨hempty, hdot, hdots⟩, hslash, hback⟩ := hnone
    refine h ⟨⟨⟨hempty, hdot⟩, hdots⟩, fun c hc => ⟨?_, ?_⟩⟩
    · rintro rfl
      exact hslash hc
    · rintro rfl
      exact hback hc
  · rintro (hname | hslash | hback) ⟨⟨⟨hempty, hdot⟩, hdots⟩, hall⟩
    · rcases hname with h | h | h
      · exact hempty h
      · exact hdot h
      · exact hdots h
    · exact (hall _ hslash).1 rfl
    · exact (hall _ hback).2 rfl

theorem isValidKey_of_not_misnamed (h : ¬ Misnamed key) : isValidKey key = true := by
  rwa [← isValidKey_eq_false_iff, Bool.not_eq_false] at h

theorem plain_iff : FileTree.Plain (key ++ ".json") ↔
    '\x00' ∉ key.toList ∧ (key ++ ".json").utf8ByteSize ≤ FileTree.longestName := by
  have hnull : (key ++ ".json").contains '\x00' = false ↔ '\x00' ∉ key.toList := by
    simp
  constructor
  · rintro ⟨hshort, hnoNull⟩
    exact ⟨hnull.mp hnoNull, Nat.le_of_not_lt hshort⟩
  · rintro ⟨hnoNull, hshort⟩
    exact ⟨Nat.not_lt_of_le hshort, hnull.mpr hnoNull⟩

/-- Different keys have different files. -/
theorem fileOf_injective (store : FileStore) : Function.Injective store.fileOf := by
  intro key other h
  have hname : [key ++ ".json"] = [other ++ ".json"] := List.append_cancel_left h
  exact (String.append_left_inj ".json").mp (List.singleton_inj.mp hname)

/-! ## Calls to files -/

theorem perform_save (store : FileStore) (key : String) (content : Bytes) :
    perform store (.save key content) =
      ((store.save key content).1.map fun _ => none, (store.save key content).2) :=
  rfl

theorem perform_load (store : FileStore) (key : String) :
    perform store (.load key) = ((store.load key).map some, store) :=
  rfl

theorem perform_of_pathOf {error : SettingsError} {call : SettingsCall}
    (h : store.pathOf call.key = .error error) : perform store call = (.error error, store) := by
  cases call with
  | save key content =>
    have hpath : store.pathOf key = .error error := h
    rw [perform_save, save, hpath]
    rfl
  | load key =>
    have hpath : store.pathOf key = .error error := h
    rw [perform_load, load, hpath]
    rfl

/-- A misnamed key is refused, and the store stays as it is. -/
theorem perform_of_misnamed {call : SettingsCall} (h : Misnamed call.key) (store : FileStore) :
    perform store call =
      (.error (.other s!"invalid config key {Text.quoted call.key}"), store) := by
  refine perform_of_pathOf ?_
  rw [pathOf, isValidKey_eq_false_iff.mpr h]
  rfl

/-- The directory of the store is there, and nothing is in it. -/
structure Fresh (store : FileStore) : Prop where
  there : store.tree.isDirectory store.base = true
  empty : ∀ name, store.tree.entries[store.base ++ [name]]? = none

/-- The files of a store, which was `origin` in the beginning, hold what the memory holds. Nothing
else has changed. -/
structure Mirrors (origin store : FileStore) (memory : MemoryStore) : Prop where
  base : store.base = origin.base
  there : store.tree.isDirectory store.base = true
  file {key : String} (hkey : Names key) :
    store.tree.entries[store.fileOf key]? = memory.blobs[key]?.map .file
  other {path : FilePath} (hpath : ∀ key, Names key → path ≠ origin.fileOf key) :
    store.tree.entries[path]? = origin.tree.entries[path]?

theorem Fresh.mirrors (h : store.Fresh) : Mirrors store store .empty where
  base := rfl
  there := h.there
  file {key} _ := by
    have hempty : MemoryStore.empty.blobs[key]? = none := Std.ExtTreeMap.getElem?_empty
    rw [hempty]
    exact h.empty _
  other _ := rfl

variable {origin : FileStore} {memory : MemoryStore}

theorem Names.isValidKey (h : Names key) : isValidKey key = true :=
  isValidKey_of_not_misnamed h.1

theorem Mirrors.find (h : Mirrors origin store memory) (hkey : Names key) :
    store.tree.find (store.fileOf key) = match memory.blobs[key]? with
      | none => .error .notFound
      | some content => .ok (.file content) := by
  rw [fileOf, FileTree.find_child_of_plain h.there (plain_iff.mpr hkey.2), ← fileOf, h.file hkey]
  cases memory.blobs[key]? <;> rfl

theorem Mirrors.load_eq (h : Mirrors origin store memory) (hkey : Names key) :
    store.load key = memory.load key := by
  have hfind := h.find hkey
  cases hblob : memory.blobs[key]? with
  | none =>
    have hread : store.tree.read (store.fileOf key) = .error .notFound := by
      rw [FileTree.read, hfind, hblob]
    simp only [load, pathOf_eq hkey.isValidKey, hread, bind, Except.bind, MemoryStore.load, hblob]
  | some content =>
    have hread : store.tree.read (store.fileOf key) = .ok content := by
      rw [FileTree.read, hfind, hblob]
    simp only [load, pathOf_eq hkey.isValidKey, hread, bind, Except.bind, MemoryStore.load, hblob]

theorem Mirrors.save_eq (h : Mirrors origin store memory) (hkey : Names key) (content : Bytes) :
    store.save key content = (.ok (), { store with
      tree := ⟨store.tree.entries.insert (store.fileOf key) (.file content)⟩ }) := by
  refine FileStore.save_eq h.there hkey.isValidKey (plain_iff.mpr hkey.2) ?_ content
  rw [FileTree.isDirectory, h.find hkey]
  cases memory.blobs[key]? <;> rfl

/-- The same content is written into a file and kept in memory. -/
theorem Mirrors.insert (h : Mirrors origin store memory) (hkey : Names key) (content : Bytes) :
    Mirrors origin
      { store with tree := ⟨store.tree.entries.insert (store.fileOf key) (.file content)⟩ }
      { blobs := memory.blobs.insert key content } where
  base := h.base
  there := FileTree.isDirectory_insert h.there _ _
  file {other} hother := by
    have hsame : store.fileOf key = store.fileOf other ↔ key = other :=
      store.fileOf_injective.eq_iff
    change (store.tree.entries.insert (store.fileOf key) (.file content))[store.fileOf other]? = _
    rw [Std.ExtTreeMap.getElem?_insert, Std.ExtTreeMap.getElem?_insert, h.file hother]
    simp only [Std.LawfulEqCmp.compare_eq_iff_eq, hsame]
    split <;> rfl
  other {path} hpath := by
    have hne : store.fileOf key ≠ path := by
      rw [fileOf, h.base]
      exact (hpath key hkey).symm
    rw [Std.ExtTreeMap.getElem?_insert, if_neg, h.other hpath]
    rwa [Std.LawfulEqCmp.compare_eq_iff_eq]

/-- Files and memory answer a call under a key that has a file in the same way. -/
theorem Mirrors.perform (h : Mirrors origin store memory) {call : SettingsCall}
    (hcall : Names call.key) :
    (SettingsStore.perform store call).1 = (SettingsStore.perform memory call).1 ∧
      Mirrors origin (SettingsStore.perform store call).2
        (SettingsStore.perform memory call).2 := by
  cases call with
  | load key =>
    have hload : store.load key = memory.load key := h.load_eq hcall
    exact ⟨congrArg (Except.map some) hload, h⟩
  | save key content =>
    have hkey : Names key := hcall
    rw [perform_save, h.save_eq hkey]
    exact ⟨rfl, h.insert hkey content⟩

/-- A call under any other key leaves the files as they are. -/
theorem Mirrors.perform_of_not_names (h : Mirrors origin store memory) {call : SettingsCall}
    (hcall : ¬ Names call.key) : (SettingsStore.perform store call).2 = store := by
  by_cases hname : Misnamed call.key
  · rw [perform_of_misnamed hname]
  · cases call with
    | load key => rfl
    | save key content =>
      have hkey : isValidKey key = true := isValidKey_of_not_misnamed hname
      have hplain : ¬ FileTree.Plain (key ++ ".json") := fun hplain =>
        hcall ⟨hname, plain_iff.mp hplain⟩
      rw [perform_save, save, pathOf_eq hkey, FileTree.ensureDirectory_of_isDirectory h.there]
      dsimp only
      cases hwrite : store.tree.write (store.fileOf key) content with
      | error cause => rfl
      | ok tree => exact absurd (FileTree.plain_of_write h.there hwrite) hplain

/-- Calls under keys that have files are answered as if everything was kept in memory, whatever
other calls are made in between. -/
theorem Mirrors.transcript (h : Mirrors origin store memory) (calls : List SettingsCall) :
    (SettingsStore.transcript store calls).filter (fun entry => Names entry.1.key) =
        SettingsStore.transcript memory (calls.filter fun call => Names call.key) ∧
      Mirrors origin (after store calls)
        (after memory (calls.filter fun call => Names call.key)) := by
  induction calls generalizing store memory with
  | nil => exact ⟨rfl, h⟩
  | cons call calls ih =>
    rw [SettingsStore.transcript, after, List.foldl_cons, ← after]
    by_cases hcall : Names call.key
    · obtain ⟨hanswer, hnext⟩ := h.perform hcall
      obtain ⟨hrest, hlast⟩ := ih hnext
      rw [List.filter_cons_of_pos (by simpa using hcall),
        List.filter_cons_of_pos (by simpa using hcall), SettingsStore.transcript, hanswer, hrest]
      exact ⟨rfl, hlast⟩
    · rw [h.perform_of_not_names hcall, List.filter_cons_of_neg (by simpa using hcall),
        List.filter_cons_of_neg (by simpa using hcall)]
      exact ih h

/-- A store over an empty directory keeps every key that has a file in this file, and changes
nothing else. It refuses misnamed keys. Under the keys that have files it gives the answers that a
store in memory gives, and what is loaded is what was saved last. -/
theorem transcript_eq_memory (h : store.Fresh) (calls : List SettingsCall) :
    (∀ entry ∈ SettingsStore.transcript store calls, Misnamed entry.1.key →
      ∃ reason, entry.2 = .error (.other reason)) ∧
    (∀ call : SettingsCall, Misnamed call.key →
      (perform (after store calls) call).2 = after store calls) ∧
    (∀ key, Names key → (after store calls).tree.entries[store.base ++ [key ++ ".json"]]? =
      (lastSaved key calls).map .file) ∧
    (∀ path, (∀ key, Names key → path ≠ store.base ++ [key ++ ".json"]) →
      (after store calls).tree.entries[path]? = store.tree.entries[path]?) ∧
    (∀ key other, Names key → Names other →
      store.base ++ [key ++ ".json"] = store.base ++ [other ++ ".json"] → key = other) ∧
    (SettingsStore.transcript store calls).filter (fun entry => Names entry.1.key) =
      SettingsStore.transcript MemoryStore.empty (calls.filter fun call => Names call.key) ∧
    ∀ key, Names key →
      (∀ content, lastSaved key calls = some content →
        (after store calls).load key = .ok content) ∧
      (lastSaved key calls = none → (after store calls).load key = .error .notFound) := by
  obtain ⟨htranscript, hmirrors⟩ := h.mirrors.transcript calls
  have hblob : ∀ key, Names key →
      (after MemoryStore.empty (calls.filter fun call => Names call.key)).blobs[key]? =
        lastSaved key calls := by
    intro key hkey
    rw [MemoryStore.getElem?_after]
    exact lastSaved_filter (fun key => Names key) (by simpa using hkey) calls
  refine ⟨fun entry hentry hname => ?_, fun call hname => ?_, fun key hkey => ?_,
    fun path => hmirrors.other, fun key other _ _ hfile => store.fileOf_injective hfile,
    htranscript, fun key hkey => ⟨fun content hlast => ?_, fun hlast => ?_⟩⟩
  · obtain ⟨before, hanswer⟩ := exists_of_mem_transcript hentry
    rw [perform_of_misnamed hname] at hanswer
    exact ⟨_, hanswer⟩
  · rw [perform_of_misnamed hname]
  · rw [← hblob key hkey, ← hmirrors.file hkey, fileOf, hmirrors.base]
  · rw [hmirrors.load_eq hkey, MemoryStore.load, hblob key hkey, hlast]
  · rw [hmirrors.load_eq hkey, MemoryStore.load, hblob key hkey, hlast]

/-- One key looks like the file of another one, one is refused, and one cannot have a file. -/
theorem transcript_eq_memory_mixed :
    let store : FileStore := ⟨["settings"], ⟨FileTree.empty.entries.insert ["settings"] .directory⟩⟩
    let calls : List SettingsCall := [.save "a" [1], .save "../a" [2], .save "a.json" [3],
      .save "a\x00" [4], .save "a" [5], .load "...", .load "a"]
    store.Fresh ∧
      (SettingsStore.transcript store calls).filter (fun entry => Names entry.1.key) =
        [(.save "a" [1], .ok none), (.save "a.json" [3], .ok none), (.save "a" [5], .ok none),
          (.load "...", .error .notFound), (.load "a", .ok (some [5]))] ∧
      (after store calls).load "a.json" = .ok [3] := by
  intro store calls
  have hfresh : store.Fresh := by
    constructor
    · have hname : FileTree.Plain "settings" := ⟨by decide, by simp⟩
      have hfind : store.tree.find ([] ++ ["settings"]) = .ok .directory :=
        FileTree.find_insert rfl hname .directory
      exact FileTree.isDirectory_iff_find.mpr hfind
    · intro name
      rw [Std.ExtTreeMap.getElem?_insert, if_neg]
      · exact Std.ExtTreeMap.getElem?_empty
      · rw [Std.LawfulEqCmp.compare_eq_iff_eq]
        simp [store]
  obtain ⟨-, -, -, -, -, htranscript, hload⟩ := transcript_eq_memory hfresh calls
  have hkept : calls.filter (fun call => Names call.key) =
      [.save "a" [1], .save "a.json" [3], .save "a" [5], .load "...", .load "a"] := by
    decide +kernel
  have hlast : lastSaved "a.json" calls = some [3] := by
    decide +kernel
  rw [hkept] at htranscript
  exact ⟨hfresh, htranscript, (hload "a.json" (by decide)).1 [3] hlast⟩

end FileStore

end DiscoveryGraph
