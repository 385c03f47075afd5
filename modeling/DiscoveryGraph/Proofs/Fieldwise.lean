import DiscoveryGraph.Proofs.Handling

/-!
# Records are read field by field

A record is read in whatever order its fields stand, and what is not known is skipped. Every field
has to be there exactly once. What one entry does to the draft of a record carries over to a map of
entries by induction.

* `handles_elements`, `handles_or_fails`: lists, element by element.
* `runs_entries`: a map of entries, up to the first one that is refused.
* `handles_record`, `handles_flawed`: whole records.
-/

namespace DiscoveryGraph

namespace Cbor.Reader

variable {α γ σ : Type} {bs octets : Bytes} {parts : List Bytes} {e : Failure}

/-- Somewhere in these octets the reader fails for one of these reasons. -/
def Fails (reason : Failure → Prop) (r : Reader α) (bs : Bytes) : Prop :=
  ∃ e, reason e ∧ Handles r bs (.error e)

/-! ## Texts and lists -/

theorem handles_text {s : String} (h : SpellsText s octets) : Handles text octets (.ok s) := by
  obtain ⟨pieces, hstrung, rfl⟩ := h
  obtain ⟨front, length, tail, rfl, hh, htail⟩ := adds_text.of_strung hstrung ""
  exact .of_untagged hh rfl fun _ => htail

/-- The key of an entry is read. -/
theorem handles_key {name : String} (hshort : (Bytes.ofText name).length ≤ 4096)
    (h : Piece 3 (Bytes.ofText name) bs) : Handles key bs (.ok (Bytes.ofText name)) := by
  obtain ⟨front, hhead, rfl⟩ := h
  refine .of_untagged (h := .text (some (Bytes.ofText name).length))
    (reads_of_spells (by omega) hhead fun _ => rfl) rfl fun start => ?_
  simp only [if_pos (show (Bytes.ofText name).length ≤ blockSize from hshort)]
  exact (Reads.textOf start name).makes.map Bytes.ofText

section Lists

variable {expected : String} {element : Nat → Reader α} {depth : Nat}
  {out : Except Failure (List α)}

theorem handles_list (h : Encloses 4 parts octets)
    (hr : Runs (fun xs => return xs ++ [← element depth]) [] parts out) :
    Handles (list expected element (depth + 1)) octets out := by
  obtain ⟨front, length, tail, rfl, hh, htail⟩ :=
    hr.of_encloses (by omega) make?_array h
  exact .of_untagged hh rfl fun _ => htail

theorem runs_elements {value : γ → α} {xs : List γ}
    (h : List.Forall₂ (fun x part => Handles (element depth) part (.ok (value x))) xs parts)
    (done : List α) :
    Runs (fun xs => return xs ++ [← element depth]) done parts (.ok (done ++ xs.map value)) := by
  induction h generalizing done with
  | nil =>
    rw [List.map_nil, List.append_nil]
    exact .nil done
  | @cons x part xs parts hpart _ ih =>
    have hnext := ih (done ++ [value x])
    rw [List.append_assoc] at hnext
    exact .cons (hpart.map fun a => done ++ [a]) hnext

/-- A list is read, if its elements are. -/
theorem handles_elements {written : γ → Bytes → Prop} {value : γ → α} {xs : List γ}
    (h : SpellsList written xs octets) (hread : ∀ x ∈ xs, ∀ part, written x part →
      Handles (element depth) part (.ok (value x))) :
    Handles (list expected element (depth + 1)) octets (.ok (xs.map value)) := by
  obtain ⟨parts, hparts, hencloses⟩ := h
  refine handles_list hencloses (runs_elements ?_ [])
  exact ((List.forall₂_and_left _ _).mpr ⟨hread, hparts⟩).imp fun x part hx => hx.1 part hx.2

theorem runs_or_fails {reason : Failure → Prop}
    (h : ∀ part ∈ parts, (∃ a, Handles (element depth) part (.ok a)) ∨
      Fails reason (element depth) part) (done : List α) :
    (∃ all, Runs (fun xs => return xs ++ [← element depth]) done parts (.ok all) ∧
      ∀ part ∈ parts, ¬ Fails reason (element depth) part) ∨
    ∃ e, reason e ∧ Runs (fun xs => return xs ++ [← element depth]) done parts (.error e) := by
  induction parts generalizing done with
  | nil => exact .inl ⟨done, .nil done, nofun⟩
  | cons part parts ih =>
    by_cases hfails : Fails reason (element depth) part
    · obtain ⟨e, he, hpart⟩ := hfails
      exact .inr ⟨e, he, .fail (hpart.map fun a => done ++ [a]) parts⟩
    · obtain ⟨a, hpart⟩ := (h part List.mem_cons_self).resolve_right hfails
      have hnext := hpart.map fun a => done ++ [a]
      rcases ih (fun other hother => h other (List.mem_cons_of_mem _ hother)) (done ++ [a]) with
        ⟨all, hruns, hclean⟩ | ⟨e, he, hruns⟩
      · exact .inl ⟨all, .cons hnext hruns, List.forall_mem_cons.mpr ⟨hfails, hclean⟩⟩
      · exact .inr ⟨e, he, .cons hnext hruns⟩

/-- A list each of whose elements is read or fails is read if none of them fails, and else fails
like one of them. -/
theorem handles_or_fails {reason : Failure → Prop} (h : Encloses 4 parts octets)
    (hparts : ∀ part ∈ parts, (∃ a, Handles (element depth) part (.ok a)) ∨
      Fails reason (element depth) part) :
    (∃ all, Handles (list expected element (depth + 1)) octets (.ok all) ∧
      ∀ part ∈ parts, ¬ Fails reason (element depth) part) ∨
    Fails reason (list expected element (depth + 1)) octets := by
  rcases runs_or_fails hparts [] with ⟨all, hruns, hclean⟩ | ⟨e, he, hruns⟩
  · exact .inl ⟨all, handles_list h hruns, hclean⟩
  · exact .inr ⟨e, he, handles_list h hruns⟩

theorem exists_of_forall₂ {δ : Type} {related : γ → δ → Prop} {xs : List γ} {ys : List δ}
    (h : List.Forall₂ related xs ys) : ∀ x ∈ xs, ∃ y ∈ ys, related x y := by
  induction h with
  | nil => nofun
  | @cons x y xs ys hxy _ ih =>
    refine List.forall_mem_cons.mpr ⟨⟨y, List.mem_cons_self, hxy⟩, fun other hother => ?_⟩
    obtain ⟨partner, hpartner, hrelated⟩ := ih other hother
    exact ⟨partner, List.mem_cons_of_mem _ hpartner, hrelated⟩

/-- The elements of a spelled list are read, and then each of them is read somewhere; or the list
fails like one of them. -/
theorem spelled_or_fails {written : γ → Bytes → Prop} {reason : Failure → Prop} {xs : List γ}
    (h : SpellsList written xs octets) (hread : ∀ x ∈ xs, ∀ part, written x part →
      (∃ a, Handles (element depth) part (.ok a)) ∨ Fails reason (element depth) part) :
    (∃ all, Handles (list expected element (depth + 1)) octets (.ok all) ∧
      ∀ x ∈ xs, ∃ part, written x part ∧ ¬ Fails reason (element depth) part) ∨
    Fails reason (list expected element (depth + 1)) octets := by
  obtain ⟨parts, hparts, hencloses⟩ := h
  refine (handles_or_fails hencloses fun part hpart => ?_).imp_left fun ⟨all, hall, hclean⟩ =>
    ⟨all, hall, fun x hx => ?_⟩
  · obtain ⟨x, hx, hwritten⟩ := exists_of_forall₂ hparts.flip part hpart
    exact hread x hx part hwritten
  · obtain ⟨part, hpart, hwritten⟩ := exists_of_forall₂ hparts x hx
    exact ⟨part, hwritten, hclean part hpart⟩

end Lists

/-! ## Records -/

section Entries

variable {fields : List (Field Reader σ)} {field : Field Reader σ} {depth : Nat} {d : σ}
  {name : String} {part value : Bytes} {out : Except Failure σ}

theorem find?_field (hname : name ∈ fields.map (·.name)) :
    ∃ field ∈ fields, field.name = name ∧
      fields.find? (fun field => Bytes.ofText field.name = Bytes.ofText name) = some field := by
  obtain ⟨first, hfirst, hfound⟩ := List.mem_map.mp hname
  have hsome : (fields.find? fun field => Bytes.ofText field.name = Bytes.ofText name).isSome :=
    List.find?_isSome.mpr ⟨first, hfirst, by simp [hfound]⟩
  obtain ⟨field, hfield⟩ := Option.isSome_iff_exists.mp hsome
  have hsame := of_decide_eq_true (List.find?_eq_some_iff_append.mp hfield).1
  exact ⟨field, List.mem_of_find?_eq_some hfield, Bytes.ofText_injective hsame, hfield⟩

/-- An entry that is no field leaves the draft as it is. -/
theorem handles_unknown (hname : name ∉ fields.map (·.name))
    (hkey : Handles key part (.ok (Bytes.ofText name))) (hvalue : Item depth value) :
    Handles (entry fields depth d) (part ++ value) (.ok d) := by
  have hnone : fields.find? (fun field => Bytes.ofText field.name = Bytes.ofText name) = none := by
    rw [List.find?_eq_none]
    intro field hfield hsame
    exact hname (List.mem_map.mpr
      ⟨field, hfield, Bytes.ofText_injective (of_decide_eq_true hsame)⟩)
  refine hkey.bind ?_
  rw [hnone]
  exact (handles_ignored hvalue).fresh.bind_nil (.pure d)

theorem handles_known
    (hfind : fields.find? (fun field => Bytes.ofText field.name = Bytes.ofText name) = some field)
    (habsent : field.present d = false) (hkey : Handles key part (.ok (Bytes.ofText name)))
    (hvalue : Makes (field.read d) value out) :
    Handles (entry fields depth d) (part ++ value) out := by
  refine hkey.bind ?_
  simp only [hfind, habsent]
  exact hvalue

theorem handles_twice
    (hfind : fields.find? (fun field => Bytes.ofText field.name = Bytes.ofText name) = some field)
    (hpresent : field.present d = true) (hkey : Handles key part (.ok (Bytes.ofText name))) :
    Handles (entry fields depth d) (part ++ value)
      (.error (.mismatch (.duplicateField field.name))) := by
  refine hkey.bind ?_
  simp only [hfind, hpresent, if_true]
  exact .fail _

end Entries

/-- What one entry does to a draft. A sound value is put into its own place and keeps what is
wanted of drafts, and a flawed value makes the reader fail. -/
structure Heeds (fields : List (Field Reader σ)) (keeps : σ → Prop) (reason : Failure → Prop)
    (sound flaw : String → Bytes → Prop) : Prop where
  nodup : (fields.map (·.name)).Nodup
  short : ∀ name ∈ fields.map (·.name), (Bytes.ofText name).length ≤ 4096
  sound {field : Field Reader σ} (hfield : field ∈ fields) {d : σ} (hd : keeps d) {value : Bytes}
    (hvalue : sound field.name value) : ∃ d', Makes (field.read d) value (.ok d') ∧ keeps d' ∧
      field.present d' = true ∧
      ∀ other ∈ fields, other.name ≠ field.name → other.present d' = other.present d
  flaw {field : Field Reader σ} (hfield : field ∈ fields) (d : σ) {value : Bytes}
    (hvalue : flaw field.name value) : ∃ e, reason e ∧ Makes (field.read d) value (.error e)

section Run

variable {fields : List (Field Reader σ)} {depth : Nat} {keeps : σ → Prop}
  {reason : Failure → Prop} {sound flaw : String → Bytes → Prop}
  {entries : List (String × Bytes)}

/-- How often a field is found in a draft and in the entries that follow. -/
def tally (field : Field Reader σ) (d : σ) (entries : List (String × Bytes)) : Nat :=
  (field.present d).toNat + occurrences field.name entries

theorem occurrences_cons (name : String) (entry : String × Bytes)
    (entries : List (String × Bytes)) : occurrences name (entry :: entries) =
      occurrences name entries + if entry.1 = name then 1 else 0 := by
  simp [occurrences, List.count_cons]

/-- One entry counts towards its own field only. It is no field's second entry, or it is refused. -/
theorem handles_entry (hheeds : Heeds fields keeps reason sound flaw) {entry : String × Bytes}
    {part : Bytes} (hkey : Piece 3 (Bytes.ofText entry.1) part)
    (hentry : Entry (fields.map (·.name)) (fun name value => sound name value ∨ flaw name value)
      depth entry) {d : σ} (hd : keeps d) :
    (∃ d', Handles (Reader.entry fields depth d) (part ++ entry.2) (.ok d') ∧ keeps d' ∧
      (∀ field ∈ fields, ∀ rest, tally field d' rest = tally field d (entry :: rest)) ∧
      (entry.1 ∈ fields.map (·.name) → ¬ flaw entry.1 entry.2)) ∨
    ∃ e, Handles (Reader.entry fields depth d) (part ++ entry.2) (.error e) ∧ (reason e ∨
      ∃ field ∈ fields, (∀ rest, 2 ≤ tally field d (entry :: rest)) ∧
        e = .mismatch (.duplicateField field.name)) := by
  cases hentry with
  | @unknown name value hname hshort hvalue =>
    refine .inl ⟨d, handles_unknown hname (handles_key hshort hkey) hvalue, hd,
      fun field hfield rest => ?_, fun hknown => absurd hknown hname⟩
    have hother : name ≠ field.name := by
      rintro rfl
      exact hname (List.mem_map_of_mem hfield)
    rw [tally, tally, occurrences_cons, if_neg hother, Nat.add_zero]
  | @known name value hname hvalue =>
    obtain ⟨field, hfield, rfl, hfind⟩ := find?_field hname
    have hkey := handles_key (hheeds.short _ hname) hkey
    cases habsent : field.present d with
    | true =>
      refine .inr ⟨_, handles_twice hfind habsent hkey, .inr ⟨field, hfield, fun rest => ?_, rfl⟩⟩
      rw [tally, habsent, occurrences_cons, if_pos rfl, Bool.toNat_true]
      omega
    | false =>
      by_cases hflaw : flaw field.name value
      · obtain ⟨e, he, hread⟩ := hheeds.flaw hfield d hflaw
        exact .inr ⟨e, handles_known hfind habsent hkey hread, .inl he⟩
      · obtain ⟨d', hread, hd', hset, hothers⟩ :=
          hheeds.sound hfield hd (hvalue.resolve_right hflaw)
        refine .inl ⟨d', handles_known hfind habsent hkey hread, hd',
          fun other hother rest => ?_, fun _ => hflaw⟩
        rw [tally, tally, occurrences_cons]
        by_cases hname : other.name = field.name
        · rw [List.inj_on_of_nodup_map hheeds.nodup hother hfield hname, habsent, hset,
            if_pos rfl, Bool.toNat_true, Bool.toNat_false]
          omega
        · rw [hothers other hother hname, if_neg (Ne.symm hname), Nat.add_zero]

/-- All entries are read, and every field is then there as often as it was found; or something is
flawed, or a field is found twice. -/
theorem runs_entries (hheeds : Heeds fields keeps reason sound flaw)
    (hparts : List.Forall₂ (fun entry part => ∃ key,
      Piece 3 (Bytes.ofText entry.1) key ∧ part = key ++ entry.2) entries parts)
    (hentries : ∀ entry ∈ entries, Entry (fields.map (·.name))
      (fun name value => sound name value ∨ flaw name value) depth entry) {d : σ} (hd : keeps d) :
    (∃ d', Runs (Reader.entry fields depth) d parts (.ok d') ∧ keeps d' ∧
      (∀ field ∈ fields, (field.present d').toNat = tally field d entries) ∧
      ∀ entry ∈ entries, entry.1 ∈ fields.map (·.name) → ¬ flaw entry.1 entry.2) ∨
    ∃ e, Runs (Reader.entry fields depth) d parts (.error e) ∧ (reason e ∨
      ∃ field ∈ fields, 2 ≤ tally field d entries ∧
        e = .mismatch (.duplicateField field.name)) := by
  induction hparts generalizing d with
  | nil => exact .inl ⟨d, .nil d, hd, fun _ _ => rfl, nofun⟩
  | @cons entry part entries parts hpart hparts ih =>
    obtain ⟨key, hkey, rfl⟩ := hpart
    rcases handles_entry hheeds hkey (hentries entry List.mem_cons_self) hd with
      ⟨d', hread, hd', htally, hclean⟩ | ⟨e, hread, he⟩
    · rcases ih (fun other hother => hentries other (List.mem_cons_of_mem _ hother)) hd' with
        ⟨last, hruns, hlast, hpresent, hrest⟩ | ⟨e, hruns, he⟩
      · refine .inl ⟨last, .cons hread hruns, hlast, fun field hfield => ?_, ?_⟩
        · rw [hpresent field hfield, htally field hfield]
        · exact List.forall_mem_cons.mpr ⟨hclean, hrest⟩
      · refine .inr ⟨e, .cons hread hruns, he.imp_right ?_⟩
        rintro ⟨field, hfield, htwo, heq⟩
        exact ⟨field, hfield, htally field hfield entries ▸ htwo, heq⟩
    · refine .inr ⟨e, .fail hread parts, he.imp_right ?_⟩
      rintro ⟨field, hfield, htwo, heq⟩
      exact ⟨field, hfield, htwo entries, heq⟩

end Run

/-- How the draft of a record is begun and completed. -/
structure Drafts (fields : List (Field Reader σ)) (blank : σ) (finish : σ → Except Mismatch α) :
    Prop where
  blank : ∀ field ∈ fields, field.present blank = false
  incomplete {d : σ} (h : ∃ field ∈ fields, field.present d = false) :
    ∃ field ∈ fields, field.present d = false ∧ finish d = .error (.missingField field.name)

section Records

variable {fields : Nat → List (Field Reader σ)} {depth : Nat} {keeps : σ → Prop}
  {reason : Failure → Prop} {sound flaw : String → Bytes → Prop} {blank : σ}
  {finish : σ → Except Mismatch α} {entries : List (String × Bytes)} {a : α}

/-- The draft that the entries lead to is completed. -/
theorem handles_completed {out : Except Failure σ} (h : Encloses 5 parts octets)
    (hr : Runs (entry (fields depth) depth) blank parts out) (finish : σ → Except Mismatch α) :
    Handles (record fields blank finish (depth + 1)) octets
      (out.bind fun d => (finish d).mapError .mismatch) := by
  obtain ⟨front, length, tail, rfl, hh, htail⟩ :=
    hr.of_encloses (by omega) make?_map h
  refine .of_untagged hh rfl fun _ => ?_
  cases out with
  | error e =>
    rw [← List.append_nil tail]
    exact htail.bind_error
  | ok d =>
    refine htail.bind_nil (f := fun d => checked (finish d)) ?_
    change Makes _ _ ((finish d).mapError .mismatch)
    cases finish d with
    | error cause => exact .fail (.mismatch cause)
    | ok a => exact .pure a

/-- A record that has every field once is read, if its values are. -/
theorem handles_record (hdrafts : Drafts (fields depth) blank finish)
    (hheeds : Heeds (fields depth) keeps (fun _ => False) sound flaw)
    (hblank : keeps blank) (hfinish : ∀ d, keeps d →
      (∀ field ∈ fields depth, field.present d = true) → finish d = .ok a)
    (h : Record ((fields depth).map (·.name)) sound depth octets) :
    Handles (record fields blank finish (depth + 1)) octets (.ok a) := by
  obtain ⟨entries, ⟨parts, hparts, hencloses⟩, hentries, honce⟩ := h
  have htally : ∀ field ∈ fields depth, tally field blank entries = 1 := by
    intro field hfield
    rw [tally, hdrafts.blank field hfield, honce field.name (List.mem_map_of_mem hfield)]
    rfl
  have hsound : ∀ entry ∈ entries, Entry ((fields depth).map (·.name))
      (fun name value => sound name value ∨ flaw name value) depth entry :=
    fun entry hentry => (hentries entry hentry).mono fun _ _ => .inl
  rcases runs_entries hheeds hparts hsound hblank with
    ⟨d, hruns, hd, hpresent, -⟩ | ⟨e, -, hreason | ⟨field, hfield, htwo, -⟩⟩
  · have hcomplete : finish d = .ok a := by
      refine hfinish d hd fun field hfield => ?_
      have hone := hpresent field hfield
      rw [htally field hfield] at hone
      exact Bool.toNat_eq_one.mp hone
    have hread := handles_completed hencloses hruns finish
    rwa [Except.bind, hcomplete] at hread
  · exact hreason.elim
  · rw [htally field hfield] at htwo
    omega

/-- A record in which something is flawed, or a field is not there exactly once, is not read. -/
theorem handles_flawed (hdrafts : Drafts (fields depth) blank finish)
    (hheeds : Heeds (fields depth) keeps reason sound flaw) (hblank : keeps blank)
    (hmap : SpellsMap entries octets)
    (hentries : ∀ entry ∈ entries, Entry ((fields depth).map (·.name))
      (fun name value => sound name value ∨ flaw name value) depth entry)
    (hbad : (∃ name ∈ (fields depth).map (·.name), occurrences name entries ≠ 1) ∨
      ∃ entry ∈ entries, entry.1 ∈ (fields depth).map (·.name) ∧ flaw entry.1 entry.2) :
    ∃ e, Handles (record fields blank finish (depth + 1)) octets (.error e) ∧ (reason e ∨
      ∃ name ∈ (fields depth).map (·.name), occurrences name entries ≠ 1 ∧
        (e = .mismatch (.duplicateField name) ∨ e = .mismatch (.missingField name))) := by
  obtain ⟨parts, hparts, hencloses⟩ := hmap
  have htally : ∀ field ∈ fields depth,
      tally field blank entries = occurrences field.name entries := by
    intro field hfield
    rw [tally, hdrafts.blank field hfield, Bool.toNat_false, Nat.zero_add]
  rcases runs_entries hheeds hparts hentries hblank with
    ⟨d, hruns, -, hpresent, hclean⟩ | ⟨e, hruns, he⟩
  · obtain ⟨name, hname, hcount⟩ := hbad.resolve_right fun ⟨entry, hentry, hname, hflaw⟩ =>
      hclean entry hentry hname hflaw
    obtain ⟨field, hfield, rfl⟩ := List.mem_map.mp hname
    have hcounts := hpresent field hfield
    have habsent : field.present d = false := by
      rw [htally field hfield] at hcounts
      cases hset : field.present d with
      | false => rfl
      | true =>
        rw [hset] at hcounts
        exact absurd hcounts.symm hcount
    obtain ⟨missing, hmissing, hnone, herror⟩ := hdrafts.incomplete ⟨field, hfield, habsent⟩
    have hzero := hpresent missing hmissing
    rw [htally missing hmissing, hnone, Bool.toNat_false] at hzero
    have hread := handles_completed hencloses hruns finish
    rw [Except.bind, herror] at hread
    exact ⟨_, hread, .inr ⟨missing.name, List.mem_map_of_mem hmissing, by omega, .inr rfl⟩⟩
  · refine ⟨e, handles_completed hencloses hruns finish, he.imp_right ?_⟩
    rintro ⟨field, hfield, htwo, heq⟩
    rw [htally field hfield] at htwo
    exact ⟨field.name, List.mem_map_of_mem hfield, by omega, .inl heq⟩

/-- A record that has every field once is not read, if the value of some field never is. -/
theorem fails_record {field : String → Bytes → Prop} (hdrafts : Drafts (fields depth) blank finish)
    (hheeds : Heeds (fields depth) keeps reason sound flaw) (hblank : keeps blank)
    (h : Record ((fields depth).map (·.name)) field depth octets)
    (hvalue : ∀ name value, field name value → sound name value ∨ flaw name value)
    (hbad : ∃ name ∈ (fields depth).map (·.name), ∀ value, field name value → flaw name value) :
    Fails reason (record fields blank finish (depth + 1)) octets := by
  obtain ⟨entries, hmap, hentries, honce⟩ := h
  obtain ⟨name, hname, hflaw⟩ := hbad
  have hfound : 0 < (entries.map Prod.fst).count name := by
    have hone := honce name hname
    rw [occurrences] at hone
    omega
  obtain ⟨⟨key, value⟩, hentry, hkey⟩ := List.mem_map.mp (List.count_pos_iff.mp hfound)
  obtain rfl : key = name := hkey
  have hfield : field key value := by
    cases hentries _ hentry with
    | known _ hvalue => exact hvalue
    | unknown hother => exact absurd hname hother
  obtain ⟨e, hread, he⟩ := handles_flawed hdrafts hheeds hblank hmap
    (fun entry hentry => (hentries entry hentry).mono hvalue)
    (.inr ⟨_, hentry, hname, hflaw value hfield⟩)
  refine ⟨e, he.resolve_right ?_, hread⟩
  rintro ⟨other, hother, hcount, -⟩
  exact hcount (honce other hother)

/-- A flawed record is not read. -/
theorem fails_flawedRecord {field flaw' : String → Bytes → Prop}
    (hdrafts : Drafts (fields depth) blank finish)
    (hheeds : Heeds (fields depth) keeps reason sound flaw) (hblank : keeps blank)
    (h : FlawedRecord ((fields depth).map (·.name)) field flaw' depth octets)
    (hvalue : ∀ name value, field name value → sound name value ∨ flaw name value)
    (hflaw : ∀ name value, flaw' name value → flaw name value)
    (hreason : ∀ name ∈ (fields depth).map (·.name),
      reason (.mismatch (.duplicateField name)) ∧ reason (.mismatch (.missingField name))) :
    Fails reason (record fields blank finish (depth + 1)) octets := by
  obtain ⟨entries, hmap, hentries, hbad⟩ := h
  obtain ⟨e, hread, he⟩ := handles_flawed hdrafts hheeds hblank hmap
    (fun entry hentry => (hentries entry hentry).mono fun name value h =>
      h.elim (hvalue name value) fun h => .inr (hflaw name value h))
    (hbad.imp_right fun ⟨entry, hentry, hname, h⟩ => ⟨entry, hentry, hname, hflaw _ _ h⟩)
  refine ⟨e, he.elim id ?_, hread⟩
  rintro ⟨name, hname, -, rfl | rfl⟩
  · exact (hreason name hname).1
  · exact (hreason name hname).2

end Records

end Cbor.Reader

end DiscoveryGraph
