import DiscoveryGraph.Proofs.GidForms

/-!
# Every spelling of a snapshot

A snapshot is read from every spelling of it. Where it is not spelled correctly, it is not read: a
field may be left out or be there twice, and an identifier may have the wrong length. Such a fault
is met wherever it stands in the message.

* `handles_fill`: a message whose identifiers are all read.
* `fails_spells`, `fails_flawed`: messages with a fault.
* `Snapshot.ofCbor_tolerates`: order, unknown entries and fields that are not there once.
* `Snapshot.ofCbor_gidLength`: identifiers of every length, in every place.
-/

namespace DiscoveryGraph

open Cbor Cbor.Reader

variable {γ : Type} {written : γ → Bytes → Prop} {octets : Bytes} {reason : Failure → Prop}

/-- What the reader of identifiers makes of everything that stands in some place, and why it may
fail. -/
structure Judges (written : γ → Bytes → Prop) (verdict : γ → Except Failure Gid)
    (reason : Failure → Prop) : Prop where
  handles (depth : Nat) {place : γ} {part : Bytes} (h : written place part) :
    Handles (gid (depth + 1)) part (verdict place)
  reason {place : γ} {e : Failure} (h : verdict place = .error e) : reason e

/-- Identifiers in either form are read. -/
theorem judges_spells (reason : Failure → Prop) : Judges Gid.Spells .ok reason where
  handles depth {id part} h := by
    obtain ⟨form, hform⟩ := h
    have hsize : id.toBytes.length ≤ 4096 := by
      rw [id.length_toBytes]
      decide
    have hread := handles_gid hform hsize depth
    rwa [Gid.Form.verdict_toBytes] at hread
  reason h := nomatch h

section Judged

variable {verdict : γ → Except Failure Gid} {xs : List γ}

/-- The verdict tells whether what stands in some place is read. -/
theorem Judges.reads_or_fails (hjudges : Judges written verdict reason) (depth : Nat) {place : γ}
    {part : Bytes} (h : written place part) :
    (∃ id, verdict place = .ok id ∧ Handles (gid (depth + 1)) part (.ok id)) ∨
      Fails reason (gid (depth + 1)) part := by
  have hhandles := hjudges.handles depth h
  cases hverdict : verdict place with
  | ok id => exact .inl ⟨id, rfl, hverdict ▸ hhandles⟩
  | error e => exact .inr ⟨e, hjudges.reason hverdict, hverdict ▸ hhandles⟩

theorem Judges.gids_or_fails (hjudges : Judges written verdict reason)
    (h : SpellsList written xs octets) :
    ((∃ all, Handles (gids (Snapshot.depthLimit - 3)) octets (.ok all)) ∧
        ∀ x ∈ xs, ∃ id, verdict x = .ok id) ∨
      Fails reason (gids (Snapshot.depthLimit - 3)) octets := by
  have hread {x : γ} {part : Bytes} (hpart : written x part) :=
    hjudges.reads_or_fails (Snapshot.depthLimit - 5) hpart
  refine (spelled_or_fails h fun x _ part hpart => ?_).imp_left fun ⟨all, hall, hclean⟩ =>
    ⟨⟨all, hall⟩, fun x hx => ?_⟩
  · exact (hread hpart).imp_left fun ⟨id, _, hid⟩ => ⟨id, hid⟩
  · obtain ⟨part, hpart, hsound⟩ := hclean x hx
    obtain ⟨id, hid, -⟩ := (hread hpart).resolve_right hsound
    exact ⟨id, hid⟩

end Judged

namespace NodeEntities

/-! ## Nodes -/

namespace Draft

/-- What the draft holds belongs to the node. -/
structure Of (node : NodeEntities) (d : Draft) : Prop where
  ns : ∀ s ∈ d.ns, s = node.node.ns
  name : ∀ s ∈ d.name, s = node.node.name
  readers : ∀ gids ∈ d.readers, gids = node.readers
  writers : ∀ gids ∈ d.writers, gids = node.writers

/-- What the draft holds belongs to the node, if a node is wanted. -/
def Agrees (target : Option NodeEntities) (d : Draft) : Prop :=
  ∀ node ∈ target, Of node d

/-- The value is read, and as that of the node, if a node is wanted. -/
def Sound (target : Option NodeEntities) (depth : Nat) : String → Bytes → Prop
  | "namespace", value => ∃ s, Handles text value (.ok s) ∧ ∀ node ∈ target, s = node.node.ns
  | "name", value => ∃ s, Handles text value (.ok s) ∧ ∀ node ∈ target, s = node.node.name
  | "readers", value => ∃ gids, Handles (Reader.gids depth) value (.ok gids) ∧
      ∀ node ∈ target, gids = node.readers
  | "writers", value => ∃ gids, Handles (Reader.gids depth) value (.ok gids) ∧
      ∀ node ∈ target, gids = node.writers
  | _, _ => False

/-- The value is a list of identifiers that is not read. -/
def Flaw (reason : Failure → Prop) (depth : Nat) (name : String) (value : Bytes) : Prop :=
  (name = "readers" ∨ name = "writers") ∧ Fails reason (Reader.gids depth) value

theorem agrees_blank (target : Option NodeEntities) : Agrees target {} :=
  fun _ _ => ⟨nofun, nofun, nofun, nofun⟩

theorem heeds (target : Option NodeEntities) (reason : Failure → Prop) (depth : Nat) :
    Heeds (fields text (gids depth)) (Agrees target) reason (Sound target depth)
      (Flaw reason depth) where
  nodup := show fieldNames.Nodup by decide
  short := show ∀ name ∈ fieldNames, (Bytes.ofText name).length ≤ 4096 by decide
  sound {field} hfield {d} hd {value} hvalue := by
    simp only [fields, List.mem_cons, List.not_mem_nil, or_false] at hfield
    rcases hfield with rfl | rfl | rfl | rfl
    · obtain ⟨s, hs, hnode⟩ := hvalue
      refine ⟨{ d with ns := some s }, hs.fresh.map _, fun node hwanted => ?_, rfl,
        by simp [fields]⟩
      exact { hd node hwanted with ns := by simpa using hnode node hwanted }
    · obtain ⟨s, hs, hnode⟩ := hvalue
      refine ⟨{ d with name := some s }, hs.fresh.map _, fun node hwanted => ?_, rfl,
        by simp [fields]⟩
      exact { hd node hwanted with name := by simpa using hnode node hwanted }
    · obtain ⟨all, hall, hnode⟩ := hvalue
      refine ⟨{ d with readers := some all }, hall.fresh.map _, fun node hwanted => ?_, rfl,
        by simp [fields]⟩
      exact { hd node hwanted with readers := by simpa using hnode node hwanted }
    · obtain ⟨all, hall, hnode⟩ := hvalue
      refine ⟨{ d with writers := some all }, hall.fresh.map _, fun node hwanted => ?_, rfl,
        by simp [fields]⟩
      exact { hd node hwanted with writers := by simpa using hnode node hwanted }
  flaw {field} hfield d {value} hvalue := by
    obtain ⟨hname, e, he, hread⟩ := hvalue
    simp only [fields, List.mem_cons, List.not_mem_nil, or_false] at hfield
    rcases hfield with rfl | rfl | rfl | rfl
    · exact absurd hname (by decide)
    · exact absurd hname (by decide)
    · exact ⟨e, he, hread.fresh.map _⟩
    · exact ⟨e, he, hread.fresh.map _⟩

theorem drafts (text : Reader String) (gids : Reader (List Gid)) :
    Drafts (fields text gids) {} finish where
  blank field hfield := by
    simp only [fields, List.mem_cons, List.not_mem_nil, or_false] at hfield
    rcases hfield with rfl | rfl | rfl | rfl <;> rfl
  incomplete {d} h := by
    obtain ⟨ns, name, readers, writers⟩ := d
    simp only [fields, List.exists_mem_cons_iff]
    cases ns with
    | none => exact .inl ⟨rfl, rfl⟩
    | some ns =>
      cases name with
      | none => exact .inr (.inl ⟨rfl, rfl⟩)
      | some name =>
        cases readers with
        | none => exact .inr (.inr (.inl ⟨rfl, rfl⟩))
        | some readers =>
          cases writers with
          | none => exact .inr (.inr (.inr (.inl ⟨rfl, rfl⟩)))
          | some writers => simp [fields] at h

/-- A complete draft of a node is the node. -/
theorem finish_eq_ok {text : Reader String} {gids : Reader (List Gid)} {node : NodeEntities}
    {d : Draft} (hd : Agrees (some node) d)
    (hset : ∀ field ∈ fields text gids, field.present d = true) : finish d = .ok node := by
  obtain ⟨ns, name, readers, writers⟩ := d
  simp only [fields, List.forall_mem_cons, Option.isSome_iff_exists] at hset
  obtain ⟨⟨ns, rfl⟩, ⟨name, rfl⟩, ⟨readers, rfl⟩, ⟨writers, rfl⟩, -⟩ := hset
  obtain ⟨hns, hname, hreaders, hwriters⟩ := hd node rfl
  obtain rfl := hns ns rfl
  obtain rfl := hname name rfl
  obtain rfl := hreaders readers rfl
  obtain rfl := hwriters writers rfl
  rfl

end Draft

namespace Template

variable {verdict : γ → Except Failure Gid} {f : γ → Gid} {node : Template γ} {name : String}
  {value : Bytes}

theorem sound_of_field (hjudges : Judges written verdict reason)
    (hok : ∀ place ∈ node.places, verdict place = .ok (f place))
    (h : node.Field written name value) :
    Draft.Sound (some (node.fill f)) (Snapshot.depthLimit - 3) name value := by
  have hread : ∀ place ∈ node.places, ∀ part, written place part →
      Handles (gid (Snapshot.depthLimit - 4)) part (.ok (f place)) := fun place hplace part hpart =>
    hok place hplace ▸ hjudges.handles (Snapshot.depthLimit - 5) hpart
  unfold Field at h
  split at h
  · exact ⟨_, handles_text h, by rintro _ ⟨⟩; rfl⟩
  · exact ⟨_, handles_text h, by rintro _ ⟨⟩; rfl⟩
  · refine ⟨_, handles_elements h fun place hplace => ?_, by rintro _ ⟨⟩; rfl⟩
    exact hread place (List.mem_append_left _ hplace)
  · refine ⟨_, handles_elements h fun place hplace => ?_, by rintro _ ⟨⟩; rfl⟩
    exact hread place (List.mem_append_right _ hplace)
  · exact h.elim

/-- A node whose identifiers are read is read. -/
theorem handles_fill (hjudges : Judges written verdict reason)
    (hok : ∀ place ∈ node.places, verdict place = .ok (f place))
    (h : node.Spells written octets) :
    Handles (nodeEntities (Snapshot.depthLimit - 3 + 1)) octets (.ok (node.fill f)) := by
  have hrecord : Record fieldNames (Draft.Sound (some (node.fill f)) (Snapshot.depthLimit - 3))
      (Snapshot.depthLimit - 3) octets :=
    h.mono fun name value hvalue => sound_of_field hjudges hok hvalue
  exact handles_record (Draft.drafts _ _) (Draft.heeds _ _ _)
    (Draft.agrees_blank _) (fun _ hd hset => Draft.finish_eq_ok hd hset) hrecord

theorem sound_or_flaw (hjudges : Judges written verdict reason)
    (h : node.Field written name value) :
    Draft.Sound none (Snapshot.depthLimit - 3) name value ∨
      Draft.Flaw reason (Snapshot.depthLimit - 3) name value := by
  unfold Field at h
  split at h
  · exact .inl ⟨_, handles_text h, nofun⟩
  · exact .inl ⟨_, handles_text h, nofun⟩
  · rcases hjudges.gids_or_fails h with ⟨⟨all, hall⟩, -⟩ | hfails
    · exact .inl ⟨all, hall, nofun⟩
    · exact .inr ⟨.inl rfl, hfails⟩
  · rcases hjudges.gids_or_fails h with ⟨⟨all, hall⟩, -⟩ | hfails
    · exact .inl ⟨all, hall, nofun⟩
    · exact .inr ⟨.inr rfl, hfails⟩
  · exact h.elim

/-- A node is not read, if the identifier in one of its places is not. -/
theorem fails_spells (hjudges : Judges written verdict reason)
    (hbad : ∃ place ∈ node.places, ∃ e, verdict place = .error e)
    (h : node.Spells written octets) :
    Fails reason (nodeEntities (Snapshot.depthLimit - 3 + 1)) octets := by
  obtain ⟨place, hplace, e, he⟩ := hbad
  have hnone : ¬ ∃ id, verdict place = .ok id := by
    rintro ⟨id, hid⟩
    rw [hid] at he
    cases he
  refine fails_record (Draft.drafts _ _) (Draft.heeds none reason _) (Draft.agrees_blank _) h
    (fun name value hvalue => sound_or_flaw hjudges hvalue) ?_
  rcases List.mem_append.mp hplace with hreader | hwriter
  · refine ⟨"readers", show "readers" ∈ fieldNames by decide, fun value hvalue => ⟨.inl rfl, ?_⟩⟩
    exact (hjudges.gids_or_fails hvalue).resolve_left
      fun hclean => hnone (hclean.2 place hreader)
  · refine ⟨"writers", show "writers" ∈ fieldNames by decide, fun value hvalue => ⟨.inr rfl, ?_⟩⟩
    exact (hjudges.gids_or_fails hvalue).resolve_left
      fun hclean => hnone (hclean.2 place hwriter)

theorem handles_or_fails (hjudges : Judges written verdict reason)
    (h : node.Spells written octets) :
    (∃ entry, Handles (nodeEntities (Snapshot.depthLimit - 3 + 1)) octets (.ok entry)) ∨
      Fails reason (nodeEntities (Snapshot.depthLimit - 3 + 1)) octets := by
  by_cases hbad : ∃ place ∈ node.places, ∃ e, verdict place = .error e
  · exact .inr (fails_spells hjudges hbad h)
  · refine .inl ⟨_, handles_fill (f := fun place => (verdict place).toOption.getD default) hjudges
      (fun place hplace => ?_) h⟩
    cases hverdict : verdict place with
    | ok id => rfl
    | error e => exact absurd ⟨place, hplace, e, hverdict⟩ hbad

end Template

/-- A node in which a field is left out or there several times is not read. -/
theorem fails_flawed (hreason : ∀ name ∈ fieldNames,
      reason (.mismatch (.duplicateField name)) ∧ reason (.mismatch (.missingField name)))
    (h : Flawed octets) : Fails reason (nodeEntities (Snapshot.depthLimit - 3 + 1)) octets :=
  fails_flawedRecord (Draft.drafts _ _) (Draft.heeds none reason _) (Draft.agrees_blank _) h
    (fun _ _ ⟨_, hvalue⟩ => Template.sound_or_flaw (judges_spells reason) hvalue)
    (fun _ _ => False.elim) hreason

end NodeEntities

namespace Snapshot

/-! ## Snapshots -/

namespace Draft

/-- What the draft holds belongs to the snapshot, if a snapshot is wanted. -/
def Agrees (target : Option Snapshot) (d : Draft) : Prop :=
  ∀ snapshot ∈ target, (∀ id ∈ d.gid, id = snapshot.gid) ∧ ∀ nodes ∈ d.nodes, nodes = snapshot.nodes

/-- The value is read, and as that of the snapshot, if a snapshot is wanted. -/
def Sound (target : Option Snapshot) (depth : Nat) : String → Bytes → Prop
  | "gid", value => ∃ id, Handles (Reader.gid depth) value (.ok id) ∧
      ∀ snapshot ∈ target, id = snapshot.gid
  | "nodes", value => ∃ nodes,
      Handles (list "struct NodeEntities" nodeEntities depth) value (.ok nodes) ∧
      ∀ snapshot ∈ target, nodes = snapshot.nodes
  | _, _ => False

/-- The value is not read. -/
def Flaw (reason : Failure → Prop) (depth : Nat) (name : String) (value : Bytes) : Prop :=
  name = "gid" ∧ Fails reason (Reader.gid depth) value ∨
    name = "nodes" ∧ Fails reason (list "struct NodeEntities" nodeEntities depth) value

theorem agrees_blank (target : Option Snapshot) : Agrees target {} :=
  fun _ _ => ⟨nofun, nofun⟩

theorem heeds (target : Option Snapshot) (reason : Failure → Prop) (depth : Nat) :
    Heeds (fields (Reader.gid depth) (list "struct NodeEntities" nodeEntities depth))
      (Agrees target) reason (Sound target depth) (Flaw reason depth) where
  nodup := show fieldNames.Nodup by decide
  short := show ∀ name ∈ fieldNames, (Bytes.ofText name).length ≤ 4096 by decide
  sound {field} hfield {d} hd {value} hvalue := by
    simp only [fields, List.mem_cons, List.not_mem_nil, or_false] at hfield
    rcases hfield with rfl | rfl
    · obtain ⟨id, hid, hsnapshot⟩ := hvalue
      refine ⟨{ d with gid := some id }, hid.fresh.map _, fun snapshot hwanted => ?_, rfl,
        by simp [fields]⟩
      exact ⟨by simpa using hsnapshot snapshot hwanted, (hd snapshot hwanted).2⟩
    · obtain ⟨nodes, hnodes, hsnapshot⟩ := hvalue
      refine ⟨{ d with nodes := some nodes }, hnodes.fresh.map _, fun snapshot hwanted => ?_, rfl,
        by simp [fields]⟩
      exact ⟨(hd snapshot hwanted).1, by simpa using hsnapshot snapshot hwanted⟩
  flaw {field} hfield d {value} hvalue := by
    simp only [fields, List.mem_cons, List.not_mem_nil, or_false] at hfield
    rcases hfield with rfl | rfl
    · obtain ⟨-, e, he, hread⟩ := hvalue.resolve_right fun h =>
        absurd (show "gid" = "nodes" from h.1) (by decide)
      exact ⟨e, he, hread.fresh.map _⟩
    · obtain ⟨-, e, he, hread⟩ := hvalue.resolve_left fun h =>
        absurd (show "nodes" = "gid" from h.1) (by decide)
      exact ⟨e, he, hread.fresh.map _⟩

theorem drafts (gid : Reader Gid) (nodes : Reader (List NodeEntities)) :
    Drafts (fields gid nodes) {} finish where
  blank field hfield := by
    simp only [fields, List.mem_cons, List.not_mem_nil, or_false] at hfield
    rcases hfield with rfl | rfl <;> rfl
  incomplete {d} h := by
    obtain ⟨gid, nodes⟩ := d
    simp only [fields, List.exists_mem_cons_iff]
    cases gid with
    | none => exact .inl ⟨rfl, rfl⟩
    | some gid =>
      cases nodes with
      | none => exact .inr (.inl ⟨rfl, rfl⟩)
      | some nodes => simp [fields] at h

/-- A complete draft of a snapshot is the snapshot. -/
theorem finish_eq_ok {gid : Reader Gid} {nodes : Reader (List NodeEntities)} {snapshot : Snapshot}
    {d : Draft} (hd : Agrees (some snapshot) d)
    (hset : ∀ field ∈ fields gid nodes, field.present d = true) : finish d = .ok snapshot := by
  obtain ⟨gid, nodes⟩ := d
  simp only [fields, List.forall_mem_cons, Option.isSome_iff_exists] at hset
  obtain ⟨⟨gid, rfl⟩, ⟨nodes, rfl⟩, -⟩ := hset
  obtain ⟨hgid, hnodes⟩ := hd snapshot rfl
  obtain rfl := hgid gid rfl
  obtain rfl := hnodes nodes rfl
  rfl

end Draft

namespace Template

variable {verdict : γ → Except Failure Gid} {f : γ → Gid} {template : Template γ} {name : String}
  {value : Bytes}

theorem sound_of_field (hjudges : Judges written verdict reason)
    (hok : ∀ place ∈ template.places, verdict place = .ok (f place))
    (h : template.Field written name value) :
    Draft.Sound (some (template.fill f)) (depthLimit - 1) name value := by
  unfold Field at h
  split at h
  · refine ⟨f template.gid, ?_, by rintro _ ⟨⟩; rfl⟩
    rw [← hok template.gid List.mem_cons_self]
    exact hjudges.handles (depthLimit - 2) h
  · refine ⟨_, handles_elements h fun node hnode part hpart => ?_, by rintro _ ⟨⟩; rfl⟩
    refine NodeEntities.Template.handles_fill hjudges (fun place hplace => ?_) hpart
    exact hok place (List.mem_cons_of_mem _ (List.mem_flatMap.mpr ⟨node, hnode, hplace⟩))
  · exact h.elim

/-- A message whose identifiers are read is read. -/
theorem handles_fill (hjudges : Judges written verdict reason)
    (hok : ∀ place ∈ template.places, verdict place = .ok (f place))
    (h : template.Spells written octets) :
    Handles (snapshot depthLimit) octets (.ok (template.fill f)) := by
  change Handles (snapshot (depthLimit - 1 + 1)) octets _
  exact handles_record (Draft.drafts _ _) (Draft.heeds _ _ _) (Draft.agrees_blank _)
    (fun _ hd hset => Draft.finish_eq_ok hd hset)
    (h.mono fun _ _ hvalue => sound_of_field hjudges hok hvalue)

theorem sound_or_flaw (hjudges : Judges written verdict reason)
    (h : template.Field written name value) :
    Draft.Sound none (depthLimit - 1) name value ∨
      Draft.Flaw reason (depthLimit - 1) name value := by
  unfold Field at h
  split at h
  · rcases hjudges.reads_or_fails (depthLimit - 2) h with ⟨id, -, hid⟩ | hfails
    · exact .inl ⟨id, hid, nofun⟩
    · exact .inr (.inl ⟨rfl, hfails⟩)
  · rcases spelled_or_fails h fun node _ part hpart =>
      NodeEntities.Template.handles_or_fails hjudges hpart with ⟨all, hall, -⟩ | hfails
    · exact .inl ⟨all, hall, nofun⟩
    · exact .inr (.inr ⟨rfl, hfails⟩)
  · exact h.elim

/-- A message is not read, if the identifier in one of its places is not. -/
theorem fails_spells (hjudges : Judges written verdict reason)
    (hbad : ∃ place ∈ template.places, ∃ e, verdict place = .error e)
    (h : template.Spells written octets) : Fails reason (snapshot depthLimit) octets := by
  obtain ⟨place, hplace, e, he⟩ := hbad
  change Fails reason (snapshot (depthLimit - 1 + 1)) octets
  refine fails_record (Draft.drafts _ _) (Draft.heeds none reason _) (Draft.agrees_blank _) h
    (fun _ _ hvalue => sound_or_flaw hjudges hvalue) ?_
  rcases List.mem_cons.mp hplace with rfl | hnode
  · refine ⟨"gid", show "gid" ∈ fieldNames by decide, fun value hvalue => .inl ⟨rfl, e, ?_⟩⟩
    exact ⟨hjudges.reason he, he ▸ hjudges.handles (depthLimit - 2) hvalue⟩
  · obtain ⟨node, hnode, hplace⟩ := List.mem_flatMap.mp hnode
    refine ⟨"nodes", show "nodes" ∈ fieldNames by decide, fun value hvalue => .inr ⟨rfl, ?_⟩⟩
    refine (spelled_or_fails hvalue fun node _ part hpart =>
      NodeEntities.Template.handles_or_fails hjudges hpart).resolve_left ?_
    rintro ⟨all, -, hclean⟩
    obtain ⟨part, hpart, hsound⟩ := hclean node hnode
    exact hsound (NodeEntities.Template.fails_spells hjudges ⟨place, hplace, e, he⟩ hpart)

end Template

/-! ## Messages -/

/-- A field of a record is left out or there several times. -/
def FieldFault (e : Failure) : Prop :=
  ∃ name ∈ fieldNames ++ NodeEntities.fieldNames,
    e = .mismatch (.duplicateField name) ∨ e = .mismatch (.missingField name)

theorem flaw_of_flawedList (h : NodeEntities.FlawedList octets) :
    Draft.Flaw FieldFault (depthLimit - 1) "nodes" octets := by
  have hreason : ∀ name ∈ NodeEntities.fieldNames, FieldFault (.mismatch (.duplicateField name)) ∧
      FieldFault (.mismatch (.missingField name)) := fun name hname =>
    ⟨⟨name, List.mem_append_right _ hname, .inl rfl⟩,
      ⟨name, List.mem_append_right _ hname, .inr rfl⟩⟩
  obtain ⟨parts, hencloses, hparts, part, hpart, hflawed⟩ := h
  refine .inr ⟨rfl, (handles_or_fails hencloses fun other hother => ?_).resolve_left ?_⟩
  · rcases hparts other hother with ⟨node, hnode⟩ | hflawed
    · exact NodeEntities.Template.handles_or_fails (judges_spells FieldFault) hnode
    · exact .inr (NodeEntities.fails_flawed hreason hflawed)
  · rintro ⟨all, -, hclean⟩
    exact hclean part hpart (NodeEntities.fails_flawed hreason hflawed)

/-- A message in which a field is left out or there several times is not read. -/
theorem fails_flawed (h : Flawed octets) : Fails FieldFault (snapshot depthLimit) octets := by
  change Fails FieldFault (snapshot (depthLimit - 1 + 1)) octets
  refine fails_flawedRecord (Draft.drafts _ _) (Draft.heeds none FieldFault _)
    (Draft.agrees_blank _) h ?_ ?_ ?_
  · rintro name value ⟨template, hvalue⟩
    exact Template.sound_or_flaw (judges_spells FieldFault) hvalue
  · rintro name value ⟨rfl, hvalue⟩
    exact flaw_of_flawedList hvalue
  · intro name hname
    exact ⟨⟨name, List.mem_append_left _ hname, .inl rfl⟩,
      ⟨name, List.mem_append_left _ hname, .inr rfl⟩⟩

theorem fill_template (snapshot : Snapshot) : snapshot.template.fill id = snapshot := by
  have hnode : (fun entry : NodeEntities => entry.template.fill id) = id := by
    funext entry
    simp [NodeEntities.template, NodeEntities.Template.fill]
  rw [template, Template.fill, List.map_map]
  change (⟨snapshot.gid, snapshot.nodes.map fun entry => entry.template.fill id⟩ : Snapshot) = _
  rw [hnode, List.map_id]

theorem ofCbor_of_handles {out : Except Failure Snapshot}
    (h : Handles (snapshot depthLimit) octets out) (rest : Bytes) :
    ofCbor (octets ++ rest) = out := by
  obtain ⟨last, hrun⟩ := h.fresh 0 rest
  rw [ofCbor, hrun]
  cases out <;> rfl

/-- Every spelling of a snapshot is read as this snapshot: the order of the fields and entries that
nobody knows make no difference. A message is not read if a field is left out or there several
times, in its own map or in that of a node. -/
theorem ofCbor_tolerates :
    (∀ (snapshot : Snapshot) (octets rest : Bytes), snapshot.Spells octets →
      ofCbor (octets ++ rest) = .ok snapshot) ∧
    ∀ octets rest : Bytes, Flawed octets →
      ∃ e, FieldFault e ∧ ofCbor (octets ++ rest) = .error e := by
  constructor
  · intro snapshot octets rest h
    have hread := Template.handles_fill (f := id) (judges_spells fun _ => True) (fun _ _ => rfl) h
    rw [fill_template] at hread
    exact ofCbor_of_handles hread rest
  · intro octets rest h
    obtain ⟨e, he, hread⟩ := fails_flawed h
    exact ⟨e, he, ofCbor_of_handles hread rest⟩

/-- The fields are in another order, both lengths are left open, and there is an entry that nobody
knows. Without the identifier, nothing is read. -/
theorem ofCbor_tolerates_unknown :
    let entries := [("nodes", [0x9f, 0xff]), ("x", [0x81, 0xf6]), ("gid", Gid.zero.toCbor)]
    let octets := openOctet 5 ::
      ((entries.flatMap fun entry => writeText entry.1 ++ entry.2) ++ [breakOctet])
    ofCbor (octets ++ [0]) = .ok ⟨.zero, []⟩ ∧
      ∃ e, FieldFault e ∧ ofCbor (writeRecord [("nodes", [0x80])] ++ [0]) = .error e := by
  intro entries octets
  have hmap : SpellsMap entries octets := by
    refine ⟨_, forall₂_entries (by decide), ?_⟩
    have hclosed : Encloses 5 (entries.map fun entry => writeText entry.1 ++ entry.2) _ :=
      .closed
    rwa [← List.flatMap_def] at hclosed
  have hitem : Item 255 [0x81, 0xf6] := by
    have hencloses : Encloses 4 [[0xf6]] [0x81, 0xf6] := .counted (.narrow (by decide))
    refine .array (fun part hpart => ?_) hencloses
    rw [List.mem_singleton.mp hpart]
    exact .simple (n := Head.nullValue) (by decide)
  have hspells : Snapshot.Spells ⟨.zero, []⟩ octets := by
    refine ⟨entries, hmap, ?_, by decide⟩
    simp only [entries, List.forall_mem_cons, List.not_mem_nil, false_implies, implies_true,
      and_true]
    exact ⟨.known (by decide) ⟨[], .nil, .closed⟩, .unknown (by decide) (by decide) hitem,
      .known (by decide) Gid.zero.spells_toCbor⟩
  have hflawed : Flawed (writeRecord [("nodes", [0x80])]) := by
    refine ⟨_, spellsMap_write (by decide) (by decide), fun entry hentry => ?_,
      .inl ⟨"gid", by decide, by decide⟩⟩
    rw [List.mem_singleton.mp hentry]
    exact .known (by decide) (.inl ⟨⟨.zero, []⟩, [], .nil, .counted (.narrow (by decide))⟩)
  exact ⟨ofCbor_tolerates.1 _ _ _ hspells, ofCbor_tolerates.2 _ _ hflawed⟩

/-- In some places of a message there are these octets, in the others spelled identifiers. -/
def Template.Written (hole : Bytes) : Option Gid → Bytes → Prop
  | some gid, octets => gid.Spells octets
  | none, octets => octets = hole

theorem judges_written {form : Gid.Form} {content hole : Bytes} (hsize : content.length ≤ 4096)
    (hhole : form.Spells content hole) : Judges (Template.Written hole)
      (fun place => place.elim (form.verdict content) .ok)
      fun e => form.verdict content = .error e where
  handles depth {place part} h := by
    cases place with
    | some gid => exact (judges_spells fun _ => True).handles depth h
    | none =>
      obtain rfl : part = hole := h
      exact handles_gid hhole hsize depth
  reason {place e} h := by
    cases place with
    | some gid => cases h
    | none => exact h

/-- A message is read if the content in the place of an identifier has the right length, and the
identifier is then in this place, whichever form it has. Else the length is reported. Of a list no
more octets are ever collected than an identifier has. -/
theorem ofCbor_gidLength {template : Template (Option Gid)} (hplace : none ∈ template.places)
    {form : Gid.Form} {content hole octets : Bytes} (hsize : content.length ≤ 4096)
    (hhole : form.Spells content hole) (h : template.Spells (Template.Written hole) octets)
    (rest : Bytes) :
    (content.length = gidWidth → ∃ gid : Gid, gid.toBytes = content ∧
      ofCbor (octets ++ rest) = .ok (template.fill (·.getD gid))) ∧
    (content.length ≠ gidWidth → ofCbor (octets ++ rest) =
      .error (.mismatch (.wrongLength (form.reported content.length) Gid.expectation))) ∧
    (∀ length filled c c', (Reader.content length gidOctet []).run c = .ok (filled, c') →
      Collects filled) ∧
    ∀ filled, Collects filled → filled.length ≤ gidWidth := by
  have hjudges := judges_written hsize hhole
  refine ⟨fun hlength => ?_, fun hlength => ?_, fun _ _ _ _ => collects_content,
    fun _ => Collects.length_le⟩
  · obtain ⟨gid, rfl⟩ := Gid.exists_toBytes hlength
    refine ⟨gid, rfl, ofCbor_of_handles (Template.handles_fill hjudges (fun place _ => ?_) h) rest⟩
    cases place with
    | some other => rfl
    | none => exact form.verdict_toBytes gid
  · have hverdict := form.verdict_of_ne hlength
    obtain ⟨e, he, hread⟩ := Template.fails_spells hjudges ⟨none, hplace, _, hverdict⟩ h
    rw [hverdict, Except.error.injEq] at he
    rw [he]
    exact ofCbor_of_handles hread rest

/-- A list of thirty octets in the place of a writer is refused after the first octet too many. -/
theorem ofCbor_gidLength_surplus :
    let content : Bytes := List.replicate 30 7
    let hole := writeList (fun b => Head.write 0 b.toNat) content
    let node := writeRecord [("writers", writeList id [hole]), ("readers", writeList id []),
      ("name", writeText "n"), ("namespace", writeText "/")]
    let octets := writeRecord [("nodes", writeList id [node]), ("gid", Gid.zero.toCbor)]
    ofCbor (octets ++ [0]) = .error (.mismatch (.wrongLength 25 Gid.expectation)) := by
  intro content hole node octets
  let template : Template (Option Gid) := ⟨some .zero, [⟨⟨"/", "n"⟩, [], [none]⟩]⟩
  have hhole : Gid.Form.list.Spells content hole := by
    refine .list (spellsList_write (by decide) _ fun b _ => Head.spells_write 0 ?_)
    have := b.toNat_lt
    omega
  have hwriters : SpellsList (Template.Written hole) [none] (writeList id [hole]) :=
    spellsList_write (by decide) (fun _ => hole) fun place hplace => by
      rw [List.mem_singleton.mp hplace]
      rfl
  have hnode : NodeEntities.Template.Spells (Template.Written hole) ⟨⟨"/", "n"⟩, [], [none]⟩
      node := by
    refine record_write (by decide) (by decide) (by decide) (by decide) ?_
    simp only [List.forall_mem_cons, List.not_mem_nil, false_implies, implies_true, and_true]
    exact ⟨hwriters, spellsList_write (by decide) (fun _ => hole) nofun,
      spellsText_write (by decide), spellsText_write (by decide)⟩
  have hnodes : SpellsList (NodeEntities.Template.Spells (Template.Written hole)) template.nodes
      (writeList id [node]) :=
    spellsList_write (by decide) (fun _ => node) fun place hplace => by
      rw [List.mem_singleton.mp hplace]
      exact hnode
  have hspells : template.Spells (Template.Written hole) octets := by
    refine record_write (by decide) (by decide) (by decide) (by decide) ?_
    simp only [List.forall_mem_cons, List.not_mem_nil, false_implies, implies_true, and_true]
    exact ⟨hnodes, Gid.zero.spells_toCbor⟩
  exact (ofCbor_gidLength (by decide) (by decide) hhole hspells [0]).2.1 (by decide)

end Snapshot

end DiscoveryGraph
