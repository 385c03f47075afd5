import DiscoveryGraph.Proofs.Members
import DiscoveryGraph.Proofs.Preferences

/-!
# Partial and damaged preferences

Preferences that are left out take their standard values, whatever else is in the file and however
it is written. A file in which a field is there twice, or has a value that does not fit, counts for
nothing, whichever fields have been read before.

* `Json.Reader.settles_prefs`, `Json.Reader.judges_prefs`: partial and damaged preferences are read,
  and refused.
* `Prefs.spells_toJson`: what is written here is one of the spellings.
* `Settings.loadPrefs_completes`: what a host makes of a file.
-/

namespace DiscoveryGraph

open Json

namespace Json.Reader

variable {α : Type} {octets rest w : Bytes}

/-! ## Preferences -/

theorem judges_reconcilePrefs : Judges reconcilePrefs fun octets =>
    Mistyped [.object, .list] octets ∨ ReconcilePrefs.Flawed octets := by
  refine judges_lenientRecord ⟨by decide, ?_⟩ _ _ _
  intro field hfield d kind value h w hw rest hrest
  obtain rfl := List.mem_singleton.mp hfield
  refine (judges_boolean h hw rest hrest).map _ fun b hb => ⟨fun hflaw => hb hflaw.2, rfl, ?_⟩
  intro other hother hne
  obtain rfl := List.mem_singleton.mp hother
  exact absurd rfl hne

theorem places_demanglePrefs : Places DemanglePrefs.Draft.topicPrefixes
    DemanglePrefs.Draft.hideUnprefixed (fun d all => { d with topicPrefixes := some all })
    (fun d b => { d with hideUnprefixed := some b }) :=
  ⟨fun _ _ => rfl, fun _ _ => rfl, fun _ _ => rfl, fun _ _ => rfl⟩

theorem judges_demanglePrefs : Judges demanglePrefs fun octets =>
    Mistyped [.object, .list] octets ∨ DemanglePrefs.Flawed octets :=
  judges_lenientRecord
    (places_demanglePrefs.heeds (by decide) judges_texts judges_boolean) _ _ _

theorem places_prefs : Places Prefs.Draft.reconcile Prefs.Draft.demangle
    (fun d prefs => { d with reconcile := some prefs })
    (fun d prefs => { d with demangle := some prefs }) :=
  ⟨fun _ _ => rfl, fun _ _ => rfl, fun _ _ => rfl, fun _ _ => rfl⟩

theorem judges_prefs : Judges prefs fun octets =>
    Mistyped [.object, .list] octets ∨ Prefs.Flawed octets :=
  judges_lenientRecord
    (places_prefs.heeds (by decide) judges_reconcilePrefs judges_demanglePrefs) _ _ _

/-- The spelling of a truth value. -/
theorem settles_writtenBoolean {may : Prop} {b : Bool} (h : octets = writeBoolean b)
    (hw : Blank w) : Settles boolean (w ++ octets) rest may (· = b) := by
  rw [h]
  exact (takes_boolean hw b).settles

/-- The given merging preferences are read, and the others take their standard values. -/
theorem settles_reconcilePrefs {given : ReconcilePrefs.Draft} (h : given.Spells octets)
    (hw : Blank w) : Settles reconcilePrefs (w ++ octets) rest False (· = given.finish) := by
  obtain ⟨entries, hrecord, hdefer⟩ := h
  refine settles_given (fun d => Slot (fun b value => value = writeBoolean b)
    "defer_unknown_endpoints" given.deferUnknownEndpoints d.deferUnknownEndpoints)
    hrecord (.empty hdefer) ?_ ?_ ?_ hw
  · intro d hd
    rw [ReconcilePrefs.Draft.finish, hd.done]
    rfl
  · intro d entry entries hd hname
    exact hd.skip fun heq => hname (heq ▸ List.mem_cons_self)
  · intro d field value entries hfield hd
    obtain rfl := List.mem_singleton.mp hfield
    obtain ⟨hempty, b, hb, hd⟩ := hd.fill
    refine ⟨hempty, fun w hw rest hrest => ?_⟩
    refine (settles_writtenBoolean hb hw).map _ fun read hread => ?_
    rw [hread]
    exact hd

/-- The given naming preferences are read, and the others take their standard values. -/
theorem settles_demanglePrefs {given : DemanglePrefs.Draft} (h : given.Spells octets)
    (hw : Blank w) : Settles demanglePrefs (w ++ octets) rest False (· = given.finish) := by
  obtain ⟨entries, hrecord, htopics, hhide⟩ := h
  refine places_demanglePrefs.settles (by decide) settles_texts settles_writtenBoolean hrecord
    htopics hhide rfl rfl (fun d htopics hhide => ?_) hw
  rw [DemanglePrefs.Draft.finish, htopics, hhide]
  rfl

/-- The given preferences are read, and the others take their standard values. -/
theorem settles_prefs {given : Prefs.Given} (h : given.Spells octets) (hw : Blank w) :
    Settles prefs (w ++ octets) rest False (· = given.complete) := by
  obtain ⟨entries, hrecord, hreconcile, hdemangle⟩ := h
  refine places_prefs.settles (by decide) ?_ ?_ hrecord (hreconcile.map (·.finish))
    (hdemangle.map (·.finish)) rfl rfl (fun d hreconcile hdemangle => ?_) hw
  · rintro _ value w rest ⟨given, hgiven, rfl⟩ hw
    exact settles_reconcilePrefs hgiven hw
  · rintro _ value w rest ⟨given, hgiven, rfl⟩ hw
    exact settles_demanglePrefs hgiven hw
  · rw [Prefs.Draft.finish, hreconcile, hdemangle]
    cases given with
    | mk reconcile demangle => cases reconcile <;> cases demangle <;> rfl

/-! ## Whole texts -/

theorem run_finished (hw : Blank w) (index : Nat) :
    ∃ index', finished.run ⟨index, w⟩ = .ok ((), ⟨index', []⟩) := by
  refine ⟨index + w.length, ?_⟩
  have hskip : (⟨index, w⟩ : Cursor).skipBlanks = ⟨index + w.length, []⟩ := by
    have htake : (w ++ []).takeWhile isBlank = w ++ [] := List.takeWhile_append_of_pos hw
    have hdrop : (w ++ []).dropWhile isBlank = [] := List.dropWhile_append_of_pos hw
    rw [List.append_nil] at htake hdrop
    rw [Cursor.skipBlanks, htake, hdrop]
  have hmodify : (modify Cursor.skipBlanks : Reader Unit).run ⟨index, w⟩ =
      .ok ((), ⟨index + w.length, []⟩) := by
    rw [← hskip]
    rfl
  rw [finished, peekPastBlanks, bind_assoc, run_bind_of_ok hmodify]
  rfl

/-- White space may stand behind the value of a whole text. -/
theorem readAll_of_settles {read : Reader α} {may : Prop} {post : α → Prop}
    (h : Settles read octets w may post) (hw : Blank w) :
    (∃ a, readAll read (octets ++ w) = .ok a ∧ post a) ∨
      (may ∧ ∃ report, readAll read (octets ++ w) = .error report) := by
  rcases h 0 with ⟨a, mid, hmid, ha⟩ | ⟨hmay, e, he⟩
  · obtain ⟨last, hlast⟩ := run_finished hw mid
    have hwhole : (do
        let value ← read
        finished
        return value : Reader α) ⟨0, octets ++ w⟩ = .ok (a, ⟨last, []⟩) :=
      (run_bind_of_ok hmid).trans (run_bind_of_ok hlast)
    exact .inl ⟨a, by rw [readAll, hwhole], ha⟩
  · have hwhole : (do
        let value ← read
        finished
        return value : Reader α) ⟨0, octets ++ w⟩ = .error e := run_bind_of_error he
    exact .inr ⟨hmay, _, by rw [readAll, hwhole]⟩

/-! ## The written form -/

theorem spellsObject_write (depth : Nat) (fields : List (String × (Nat → Bytes))) :
    SpellsObject (fields.map fun field => (field.1, field.2 (depth + 1)))
      (writeRecord depth fields) := by
  refine ⟨_, ?_, encloses_write 0x7B 0x7D depth _⟩
  refine List.forall₂_map_left_iff.mpr (List.forall₂_map_right_iff.mpr ?_)
  refine List.forall₂_same.mpr fun field _ => ⟨_, spellsText_write field.1, ?_⟩
  exact ⟨[], [0x20], blank_nil, blank_space, by simp⟩

theorem item_writeRecord (depth : Nat) (fields : List (String × (Nat → Bytes)))
    (h : ∀ field ∈ fields, ∃ kind, Item kind (field.2 (depth + 1))) :
    Item .object (writeRecord depth fields) :=
  item_of_object (spellsObject_write depth fields) (List.forall_mem_map.mpr h)

theorem spellsRecord_write {names : List String} (depth : Nat)
    (fields : List (String × (Nat → Bytes))) (hnames : ∀ field ∈ fields, field.1 ∈ names) :
    SpellsRecord names (fields.map fun field => (field.1, field.2 (depth + 1)))
      (writeRecord depth fields) where
  object := spellsObject_write depth fields
  unknown entry hentry hother := by
    obtain ⟨field, hfield, rfl⟩ := List.mem_map.mp hentry
    exact absurd (hnames field hfield) hother

theorem spellsTexts_write (depth : Nat) (all : List String) :
    SpellsList SpellsText all (writeList (fun _ => writeText) depth all) := by
  refine ⟨all.map writeText, ?_, encloses_write 0x5B 0x5D depth _⟩
  exact List.forall₂_map_right_iff.mpr (List.forall₂_same.mpr fun s _ => spellsText_write s)

end Json.Reader

theorem ReconcilePrefs.spells_toJson (prefs : ReconcilePrefs) (depth : Nat) :
    (⟨some prefs.deferUnknownEndpoints⟩ : Draft).Spells (prefs.toJson depth) := by
  refine ⟨_, Json.Reader.spellsRecord_write depth _ (by simp [fieldNames]), ?_⟩
  simp [Json.Given, Json.valuesOf]

theorem DemanglePrefs.spells_toJson (prefs : DemanglePrefs) (depth : Nat) :
    (⟨some prefs.topicPrefixes, some prefs.hideUnprefixed⟩ : Draft).Spells
      (prefs.toJson depth) := by
  refine ⟨_, Json.Reader.spellsRecord_write depth _ (by simp [fieldNames]), ?_, ?_⟩
  · simp [Json.Given, Json.valuesOf, Json.Reader.spellsTexts_write]
  · simp [Json.Given, Json.valuesOf]

/-- The written form of preferences is one of the spellings. -/
theorem Prefs.spells_toJson (prefs : Prefs) (depth : Nat) :
    (⟨some ⟨some prefs.reconcile.deferUnknownEndpoints⟩,
      some ⟨some prefs.demangle.topicPrefixes, some prefs.demangle.hideUnprefixed⟩⟩ : Given).Spells
      (prefs.toJson depth) := by
  refine ⟨_, Json.Reader.spellsRecord_write depth _ (by simp [fieldNames]), ?_, ?_⟩
  · simp [Json.Given, Json.valuesOf, ReconcilePrefs.spells_toJson]
  · simp [Json.Given, Json.valuesOf, DemanglePrefs.spells_toJson]

namespace Settings

open Json.Reader (Blank blank_space blank_newLine spellsText_write spellsObject_write
  item_writeRecord)

variable {σ : Type} [SettingsStore σ] {store : σ} {w w' octets : Bytes}

/-- A key with content has the value that its content is read as. -/
theorem load_of_ne_nil {α : Type} {read : Json.Reader α} {key : String} {bs : Bytes}
    (hload : SettingsStore.load store key = .ok bs) (hne : bs ≠ []) :
    load read store key =
      ((Json.Reader.readAll read bs).map some).mapError SettingsError.malformed := by
  obtain ⟨b, more, rfl⟩ := List.exists_cons_of_ne_nil hne
  rw [load, hload]
  dsimp only
  cases Json.Reader.readAll read (b :: more) <;> rfl

theorem ne_nil_of_object {entries : List (String × Bytes)} (h : SpellsObject entries octets)
    (w w' : Bytes) : w ++ octets ++ w' ≠ [] := by
  obtain ⟨parts, -, hencloses⟩ := h
  obtain ⟨more, rfl⟩ := hencloses.exists_cons
  simp

/-- What a host makes of the file with its preferences. Given preferences are taken over, whatever
else is in the file and however it is written, and those that are left out have their standard
values. If the file is flawed, all of them have. -/
theorem loadPrefs_completes (hw : Blank w) (hw' : Blank w')
    (hload : SettingsStore.load store prefsKey = .ok (w ++ octets ++ w')) :
    (∀ given : Prefs.Given, given.Spells octets → loadPrefs store = (given.complete, [])) ∧
    (Prefs.Flawed octets → ∃ report,
      loadPrefs store = (.standard, [.prefsUnreadable prefsKey report])) := by
  refine ⟨fun given hgiven => ?_, fun hflawed => ?_⟩
  · have hread := Json.Reader.readAll_of_settles (Json.Reader.settles_prefs hgiven hw) hw'
    obtain ⟨entries, hrecord, -⟩ := hgiven
    rcases hread with ⟨prefs, hread, rfl⟩ | ⟨hfalse, -⟩
    · rw [loadPrefs, load_of_ne_nil hload (ne_nil_of_object hrecord.object w w'), hread]
      rfl
    · exact hfalse.elim
  · have hflaw := hflawed
    obtain ⟨entries, hobject, hvalues, -⟩ := hflawed
    have hitem := Json.Reader.item_of_object hobject hvalues
    have hsettles := Json.Reader.judges_prefs hitem hw w' (Json.Reader.ends_blank hw')
    rcases Json.Reader.readAll_of_settles hsettles hw' with ⟨prefs, -, hclean⟩ | ⟨-, report, hread⟩
    · exact absurd (.inr hflaw) hclean
    · refine ⟨(SettingsError.malformed report).message, ?_⟩
      rw [loadPrefs, load_of_ne_nil hload (ne_nil_of_object hobject w w'), hread]
      rfl

/-- A file in which a key is escaped and an unknown member has a list for its value, and a file
whose last field does not fit. -/
theorem loadPrefs_completes_awkward :
    let given := Bytes.ofText
      " \x7b\"\\u0064emangle\" :\x7b\"\":[null] ,\"hide_unprefixed\":false\x7d\x7d\n"
    let shown := [("hide_unprefixed", fun _ => writeBoolean false)]
    let unfit := [("defer_unknown_endpoints", fun _ => Bytes.ofText "null")]
    let damaged := writeRecord 0 [("demangle", fun depth => writeRecord depth shown),
      ("reconcile", fun depth => writeRecord depth unfit)]
    let store (bs : Bytes) : MemoryStore := (MemoryStore.empty.save prefsKey bs).2
    loadPrefs (store given) = (⟨.standard, ⟨["rt"], false⟩⟩, []) ∧
      ∃ report, loadPrefs (store damaged) = (.standard, [.prefsUnreadable prefsKey report]) := by
  intro given shown unfit damaged store
  have hload : ∀ bs, SettingsStore.load (store bs) prefsKey = .ok bs :=
    MemoryStore.load_save .empty prefsKey
  refine ⟨?_, ?_⟩
  · let inner := Bytes.ofText "\x7b\"\":[null] ,\"hide_unprefixed\":false\x7d"
    let outer := Bytes.ofText
      "\x7b\"\\u0064emangle\" :\x7b\"\":[null] ,\"hide_unprefixed\":false\x7d\x7d"
    have hlist : Item .list (Bytes.ofText "[null]") := by
      have hencloses : Encloses 0x5B 0x5D [Bytes.ofText "null"] (Bytes.ofText "[null]") :=
        .listed (.last (w := []) blank_nil blank_nil)
      have hnull : ∀ part ∈ [(Kind.null, Bytes.ofText "null")], Item part.1 part.2 :=
        List.forall_mem_singleton.mpr .null
      exact .list hnull hencloses
    have hinner : DemanglePrefs.Draft.Spells ⟨none, some false⟩ inner := by
      refine ⟨[("", Bytes.ofText "[null]"), ("hide_unprefixed", writeBoolean false)],
        ⟨⟨[Bytes.ofText "\"\":[null]", Bytes.ofText "\"hide_unprefixed\":false"], ?_, ?_⟩, ?_⟩,
        .nil, .cons rfl .nil⟩
      · refine .cons ⟨_, spellsText_write "", [], [], blank_nil, blank_nil, rfl⟩ (.cons ?_ .nil)
        exact ⟨_, spellsText_write "hide_unprefixed", [], [], blank_nil, blank_nil, rfl⟩
      · exact .listed (.cons blank_nil blank_space (.last blank_nil blank_nil))
      · refine List.forall_mem_cons.mpr ⟨fun _ => ⟨_, hlist⟩, List.forall_mem_singleton.mpr ?_⟩
        exact fun hunknown => absurd (by decide) hunknown
    have hkey : SpellsText "demangle" (Bytes.ofText "\"\\u0064emangle\"") := by
      have hplain : ∀ c ∈ "emangle".toList, c ≠ '"' ∧ c ≠ '\\' ∧ 0x20 ≤ c.toNat :=
        List.forall_iff_forall_mem.mp (by decide)
      refine ⟨Bytes.ofText "\\u0064" :: ("emangle".toList.map String.utf8EncodeChar), ?_, rfl⟩
      refine .cons (.numeric rfl) (List.forall₂_map_right_iff.mpr (List.forall₂_same.mpr ?_))
      exact fun c hc => .plain (hplain c hc).1 (hplain c hc).2.1 (hplain c hc).2.2
    have houter : Prefs.Given.Spells ⟨none, some ⟨none, some false⟩⟩ outer := by
      refine ⟨[("demangle", inner)], ⟨⟨[Bytes.ofText "\"\\u0064emangle\" :" ++ inner], ?_, ?_⟩, ?_⟩,
        .nil, .cons hinner .nil⟩
      · exact .cons ⟨_, hkey, [0x20], [], blank_space, blank_nil, rfl⟩ .nil
      · exact .listed (.last (w := []) blank_nil blank_nil)
      · exact List.forall_mem_singleton.mpr fun hunknown => absurd (by decide) hunknown
    have hsplit : given = [0x20] ++ outer ++ [0x0A] := rfl
    exact (loadPrefs_completes blank_space (blank_newLine 0)
      ((hload given).trans (congrArg _ hsplit))).1 _ houter
  · have hnull : ∃ kind, Item kind (Bytes.ofText "null") := ⟨_, .null⟩
    have hfalse : ∃ kind, Item kind (writeBoolean false) := ⟨_, .boolean false⟩
    have hshown := item_writeRecord 1 shown (List.forall_mem_singleton.mpr hfalse)
    have hunfit := item_writeRecord 1 unfit (List.forall_mem_singleton.mpr hnull)
    have hreconcile : ReconcilePrefs.Flawed (writeRecord 1 unfit) := by
      refine ⟨_, spellsObject_write 1 unfit, List.forall_mem_singleton.mpr hnull, .inr ?_⟩
      exact ⟨_, List.mem_cons_self, List.mem_cons_self, rfl, _, by decide, .null⟩
    have hdamaged : Prefs.Flawed damaged := by
      refine ⟨_, spellsObject_write 0 _, ?_, .inr ?_⟩
      · exact List.forall_mem_cons.mpr ⟨⟨_, hshown⟩, List.forall_mem_singleton.mpr ⟨_, hunfit⟩⟩
      · exact ⟨_, List.mem_cons_of_mem _ List.mem_cons_self, by decide, .inl ⟨rfl, .inr hreconcile⟩⟩
    have hsplit : damaged = [] ++ damaged ++ [] := by rw [List.append_nil, List.nil_append]
    exact (loadPrefs_completes blank_nil blank_nil
      ((hload damaged).trans (congrArg _ hsplit))).2 hdamaged

end Settings

end DiscoveryGraph
