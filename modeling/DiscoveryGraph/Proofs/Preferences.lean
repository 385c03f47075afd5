import DiscoveryGraph.Proofs.Files
import DiscoveryGraph.Proofs.Printed
import DiscoveryGraph.Settings.Service

/-!
# Saved preferences

Preferences are printed, stored under their key, and taken up by the next host that starts with the
same store.

* `Json.Reader.takes_prefs`: printed preferences are read back, whatever stands behind them.
* `Settings.loadsBack_of_load`: a store that holds the printed preferences determines what a host
  works with.
* `Settings.loadsBack_of_save`: saved preferences load back, from memory and from files.
-/

namespace DiscoveryGraph

namespace Json.Reader

variable {w : Bytes}

theorem takes_reconcilePrefs (hw : Blank w) (prefs : ReconcilePrefs) (depth : Nat) :
    Takes reconcilePrefs (w ++ prefs.toJson depth) prefs := by
  refine takes_writeRecord (d := ⟨some prefs.deferUnknownEndpoints⟩) hw ?_ rfl
  exact .entry rfl rfl ((takes_boolean blank_space prefs.deferUnknownEndpoints).map _) (.nil _)

theorem takes_demanglePrefs (hw : Blank w) (prefs : DemanglePrefs) (depth : Nat) :
    Takes demanglePrefs (w ++ prefs.toJson depth) prefs := by
  refine takes_writeRecord
    (d := ⟨some prefs.topicPrefixes, some prefs.hideUnprefixed⟩) hw ?_ rfl
  refine .entry rfl rfl ((takes_texts blank_space (depth + 1) prefs.topicPrefixes).map _) ?_
  exact .entry rfl rfl ((takes_boolean blank_space prefs.hideUnprefixed).map _) (.nil _)

/-- Printed preferences are read back. -/
theorem takes_prefs (hw : Blank w) (prefs : Prefs) (depth : Nat) :
    Takes Reader.prefs (w ++ prefs.toJson depth) prefs := by
  refine takes_writeRecord (d := ⟨some prefs.reconcile, some prefs.demangle⟩) hw ?_ rfl
  refine .entry rfl rfl ((takes_reconcilePrefs blank_space prefs.reconcile (depth + 1)).map _) ?_
  exact .entry rfl rfl ((takes_demanglePrefs blank_space prefs.demangle (depth + 1)).map _) (.nil _)

/-- A text that holds a value and nothing else is read as this value. -/
theorem readAll_of_takes {α : Type} {read : Reader α} {bs : Bytes} {a : α} (h : Takes read bs a) :
    readAll read bs = .ok a := by
  obtain ⟨last, hlast⟩ := h 0 []
  rw [List.append_nil] at hlast
  have hwhole : (do
      let value ← read
      finished
      return value : Reader α) ⟨0, bs⟩ = .ok (a, ⟨last, []⟩) := run_bind_of_ok hlast
  rw [readAll, hwhole]

end Json.Reader

namespace Settings

variable {σ : Type} [SettingsStore σ]

/-- A host that starts with this store works with these preferences. -/
structure LoadsBack (store : σ) (prefs : Prefs) : Prop where
  value : load Json.Reader.prefs store prefsKey = .ok (some prefs)
  chosen : loadPrefs store = (prefs, [])
  graph : (loadGraph store).1 = .empty prefs
  graph_prefs : (loadGraph store).1.prefs = prefs
  names : ∀ raw, (loadGraph store).2.1 raw = Demangler.topic prefs.demangle raw

/-- The printed preferences under their key are all that a host needs. -/
theorem loadsBack_of_load {store : σ} {prefs : Prefs}
    (h : SettingsStore.load store prefsKey = .ok (prefs.toJson 0)) : LoadsBack store prefs := by
  have htakes : Json.Reader.Takes Json.Reader.prefs (prefs.toJson 0) prefs :=
    Json.Reader.takes_prefs (w := []) nofun prefs 0
  have hread := Json.Reader.readAll_of_takes htakes
  -- The printed form is never empty, so it is not mistaken for a key without content.
  obtain ⟨b, bs, hprinted⟩ : ∃ b bs, prefs.toJson 0 = b :: bs := ⟨_, _, rfl⟩
  have hvalue : load Json.Reader.prefs store prefsKey = .ok (some prefs) := by
    rw [load, h, hprinted]
    dsimp only
    rw [← hprinted, hread]
  have hchosen : loadPrefs store = (prefs, []) := by
    rw [loadPrefs, hvalue]
  have hloaded : loadGraph store = (.empty prefs, Demangler.topic prefs.demangle, []) := by
    rw [loadGraph, hchosen]
  exact {
    value := hvalue
    chosen := hchosen
    graph := by rw [hloaded]
    graph_prefs := by
      rw [hloaded]
      rfl
    names := fun raw => by rw [hloaded] }

theorem plain_prefsKey : FileTree.Plain (prefsKey ++ ".json") :=
  ⟨by decide, by simp [prefsKey]⟩

/-- Saved preferences load back, from memory, from files, and from files that are opened again.
Files can be written unless a directory is in the way. -/
theorem loadsBack_of_save (prefs : Prefs) :
    (∀ store : MemoryStore, ∃ store', save prefs.toJson store prefsKey = (.ok (), store') ∧
      LoadsBack store' prefs) ∧
    (∀ store store' : FileStore, save prefs.toJson store prefsKey = (.ok (), store') →
      LoadsBack store' prefs ∧
        ∃ again, FileStore.openAt store'.tree store.base = .ok again ∧ LoadsBack again prefs) ∧
    ∀ (tree : FileTree) (base : FilePath) (store : FileStore),
      FileStore.openAt tree base = .ok store →
      store.tree.isDirectory (base ++ [prefsKey ++ ".json"]) = false →
      ∃ store', save prefs.toJson store prefsKey = (.ok (), store') := by
  refine ⟨fun store => ?_, fun store store' hsave => ?_, fun tree base store hopen hfile => ?_⟩
  · exact ⟨_, rfl, loadsBack_of_load (MemoryStore.load_save store prefsKey _)⟩
  · have hsave : store.save prefsKey (prefs.toJson 0) = (.ok (), store') := hsave
    have hback : LoadsBack store' prefs := loadsBack_of_load (FileStore.load_of_save hsave)
    have hbase : store'.base = store.base := (FileStore.exists_of_save hsave).2.1
    exact ⟨hback, store', hbase ▸ FileStore.openAt_of_save hsave, hback⟩
  · obtain ⟨rfl, hthere⟩ := FileStore.isDirectory_of_openAt hopen
    exact ⟨_, FileStore.save_eq hthere (by decide) plain_prefsKey hfile _⟩

/-- Preferences with awkward prefixes come back from a directory without files. -/
theorem loadsBack_of_save_awkward :
    let prefs : Prefs :=
      { reconcile := { deferUnknownEndpoints := false }
        demangle :=
          { topicPrefixes := ["", "\"\\/", "\n\x01\x7f", "ü€𝄞"], hideUnprefixed := false } }
    let tree : FileTree := { entries := FileTree.empty.entries.insert ["settings"] .directory }
    ∃ store store' again : FileStore, FileStore.openAt tree ["settings"] = .ok store ∧
      save prefs.toJson store prefsKey = (.ok (), store') ∧ LoadsBack store' prefs ∧
      FileStore.openAt store'.tree store.base = .ok again ∧ LoadsBack again prefs := by
  intro prefs tree
  have hthere : tree.isDirectory ["settings"] = true := by
    have hname : FileTree.Plain "settings" := ⟨by decide, by simp⟩
    have hfind : tree.find ([] ++ ["settings"]) = .ok .directory :=
      FileTree.find_insert rfl hname .directory
    exact FileTree.isDirectory_iff_find.mpr hfind
  have hopen : FileStore.openAt tree ["settings"] = .ok ⟨["settings"], tree⟩ := by
    rw [FileStore.openAt, FileTree.ensureDirectory_of_isDirectory hthere]
  have hfile : tree.isDirectory (["settings"] ++ [prefsKey ++ ".json"]) = false := by
    have hempty : tree.entries[["settings"] ++ [prefsKey ++ ".json"]]? = none := rfl
    rw [FileTree.isDirectory, FileTree.find_child_of_plain hthere plain_prefsKey, hempty]
  obtain ⟨-, hback, hsave⟩ := loadsBack_of_save prefs
  obtain ⟨store', hsaved⟩ := hsave tree ["settings"] _ hopen hfile
  obtain ⟨hloads, again, hopenAgain, hloadsAgain⟩ := hback _ store' hsaved
  exact ⟨_, store', again, hopen, hsaved, hloads, hopenAgain, hloadsAgain⟩

end Settings

end DiscoveryGraph
