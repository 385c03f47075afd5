import DiscoveryGraph.Proofs.Listing
import DiscoveryGraph.Proofs.Octets
import DiscoveryGraph.Snapshot.Cbor
import Mathlib.Data.List.Forall2

/-!
# Ways to spell a snapshot

CBOR leaves a choice to the writer. Heads may be wider than they need to be, strings may come in
pieces, lists and maps may be closed by a break instead of being counted, and the entries of a map
stand in any order. A peer may also add entries that nobody here knows. All of this is described by
relations between values and octets, without any reader.

* `Item`: anything that a record may hold in its unknown entries.
* `Record`, `FlawedRecord`: maps that have each field of a record exactly once, and maps that do
  not.
* `Snapshot.Template.Spells`: a snapshot, whatever stands in the places of its identifiers.
* `Snapshot.Flawed`: a message in which a field is left out or there twice.
* `Snapshot.spells_toCbor`: what is written here is one of the spellings.
-/

namespace DiscoveryGraph

namespace Cbor

/-! ## Items -/

/-- The octets are a head of this major type with this argument. Wide heads have their argument
behind the first octet. -/
inductive Head.Spells (major n : Nat) : Bytes → Prop where
  | narrow (hn : n < 24) : Spells major n [UInt8.ofNat (major * 32 + n)]
  | wide {low width : Nat} (hwidth : (low, width) ∈ [(24, 1), (25, 2), (26, 4), (27, 8)])
      (hn : n < 256 ^ width) :
      Spells major n (UInt8.ofNat (major * 32 + low) :: Bytes.bigEndian width n)

/-- The first octet of what ends at a break. -/
def openOctet (major : Nat) : UInt8 :=
  UInt8.ofNat (major * 32 + 31)

/-- A break. -/
def breakOctet : UInt8 :=
  0xff

/-- A list or map of these parts, behind their number or up to a break. -/
inductive Encloses (major : Nat) (parts : List Bytes) : Bytes → Prop where
  | counted {head : Bytes} (hhead : Head.Spells major parts.length head) :
      Encloses major parts (head ++ parts.flatten)
  | closed : Encloses major parts (openOctet major :: (parts.flatten ++ [breakOctet]))

/-- A string in one piece. -/
def Piece (major : Nat) (content octets : Bytes) : Prop :=
  ∃ head, Head.Spells major content.length head ∧ octets = head ++ content

/-- A string in one piece, or in pieces up to a break. -/
inductive Strung (major : Nat) : List Bytes → Bytes → Prop where
  | whole {content octets : Bytes} (hpiece : Piece major content octets) :
      Strung major [content] octets
  | closed {contents parts : List Bytes} (hpieces : List.Forall₂ (Piece major) contents parts) :
      Strung major contents (openOctet major :: (parts.flatten ++ [breakOctet]))

/-- A text. Each of its pieces is a text. -/
def SpellsText (s : String) (octets : Bytes) : Prop :=
  ∃ pieces : List String, Strung 3 (pieces.map Bytes.ofText) octets ∧ String.join pieces = s

/-- A list with these elements. -/
def SpellsList {α : Type} (written : α → Bytes → Prop) (xs : List α) (octets : Bytes) : Prop :=
  ∃ parts, List.Forall₂ written xs parts ∧ Encloses 4 parts octets

/-- An integer, a string, a text, a floating-point number, a boolean, a null, or a list or map of
items. Lists and maps are nested up to a given depth. -/
inductive Item : Nat → Bytes → Prop where
  | integer {depth major n : Nat} {octets : Bytes} (hmajor : major = 0 ∨ major = 1)
      (hhead : Head.Spells major n octets) : Item depth octets
  | bytes {depth : Nat} {contents : List Bytes} {octets : Bytes} (h : Strung 2 contents octets) :
      Item depth octets
  | text {depth : Nat} {s : String} {octets : Bytes} (h : SpellsText s octets) : Item depth octets
  | float {depth low width n : Nat} (hwidth : (low, width) ∈ [(25, 2), (26, 4), (27, 8)])
      (hn : n < 256 ^ width) :
      Item depth (UInt8.ofNat (7 * 32 + low) :: Bytes.bigEndian width n)
  | simple {depth n : Nat} (hn : n ∈ [Head.falseValue, Head.trueValue, Head.nullValue]) :
      Item depth [UInt8.ofNat (7 * 32 + n)]
  | array {depth : Nat} {parts : List Bytes} {octets : Bytes}
      (hparts : ∀ part ∈ parts, Item depth part) (h : Encloses 4 parts octets) :
      Item (depth + 1) octets
  | map {depth : Nat} {entries : List (Bytes × Bytes)} {octets : Bytes}
      (hkeys : ∀ entry ∈ entries, Item depth entry.1)
      (hvalues : ∀ entry ∈ entries, Item depth entry.2)
      (h : Encloses 5 (entries.map fun entry => entry.1 ++ entry.2) octets) :
      Item (depth + 1) octets

/-! ## Records -/

/-- A map of these entries. A key is a text in one piece. -/
def SpellsMap (entries : List (String × Bytes)) (octets : Bytes) : Prop :=
  ∃ parts, List.Forall₂ (fun entry part =>
      ∃ key, Piece 3 (Bytes.ofText entry.1) key ∧ part = key ++ entry.2) entries parts ∧
    Encloses 5 parts octets

/-- An entry of a record is one of its fields, or it has some other short key and any item for its
value. -/
inductive Entry (names : List String) (field : String → Bytes → Prop) (depth : Nat) :
    String × Bytes → Prop where
  | known {name : String} {value : Bytes} (hname : name ∈ names) (hvalue : field name value) :
      Entry names field depth (name, value)
  | unknown {name : String} {value : Bytes} (hname : name ∉ names)
      (hshort : (Bytes.ofText name).length ≤ 4096) (hvalue : Item depth value) :
      Entry names field depth (name, value)

theorem Entry.mono {names : List String} {field field' : String → Bytes → Prop} {depth : Nat}
    {entry : String × Bytes} (h : Entry names field depth entry)
    (himp : ∀ name value, field name value → field' name value) :
    Entry names field' depth entry := by
  cases h with
  | known hname hvalue => exact .known hname (himp _ _ hvalue)
  | unknown hname hshort hvalue => exact .unknown hname hshort hvalue

/-- How often a key occurs. -/
def occurrences (name : String) (entries : List (String × Bytes)) : Nat :=
  (entries.map Prod.fst).count name

/-- A map that has each of the fields once. -/
def Record (names : List String) (field : String → Bytes → Prop) (depth : Nat) (octets : Bytes) :
    Prop :=
  ∃ entries, SpellsMap entries octets ∧ (∀ entry ∈ entries, Entry names field depth entry) ∧
    ∀ name ∈ names, occurrences name entries = 1

theorem Record.mono {names : List String} {field field' : String → Bytes → Prop} {depth : Nat}
    {octets : Bytes} (h : Record names field depth octets)
    (himp : ∀ name value, field name value → field' name value) :
    Record names field' depth octets := by
  obtain ⟨entries, hmap, hentries, honce⟩ := h
  exact ⟨entries, hmap, fun entry hentry => (hentries entry hentry).mono himp, honce⟩

/-- A map in which a field is left out or there several times, or the value of a field is flawed
itself. -/
def FlawedRecord (names : List String) (field flaw : String → Bytes → Prop) (depth : Nat)
    (octets : Bytes) : Prop :=
  ∃ entries, SpellsMap entries octets ∧
    (∀ entry ∈ entries, Entry names (fun name value => field name value ∨ flaw name value) depth
      entry) ∧
    ((∃ name ∈ names, occurrences name entries ≠ 1) ∨
      ∃ entry ∈ entries, entry.1 ∈ names ∧ flaw entry.1 entry.2)

end Cbor

open Cbor

/-! ## Identifiers -/

/-- The forms in which an identifier may be written. -/
inductive Gid.Form where
  | bytes
  | list

/-- The octets spell an identifier with this content, or what would be one if it had the right
length: a string in one piece, or a list of integers. -/
inductive Gid.Form.Spells (content : Bytes) : Gid.Form → Bytes → Prop where
  | bytes {octets : Bytes} (hpiece : Piece 2 content octets) : Spells content .bytes octets
  | list {octets : Bytes}
      (hlist : SpellsList (fun (b : UInt8) => Head.Spells 0 b.toNat) content octets) :
      Spells content .list octets

/-- The octets spell the identifier in one of the forms. -/
def Gid.Spells (gid : Gid) (octets : Bytes) : Prop :=
  ∃ form : Gid.Form, form.Spells gid.toBytes octets

/-! ## Snapshots -/

/-- A node with something in the places of the identifiers. -/
structure NodeEntities.Template (γ : Type) where
  node : NodeName
  readers : List γ
  writers : List γ

/-- A snapshot with something in the places of the identifiers. -/
structure Snapshot.Template (γ : Type) where
  gid : γ
  nodes : List (NodeEntities.Template γ)

namespace NodeEntities

/-- The fields of a node. -/
def fieldNames : List String :=
  ["namespace", "name", "readers", "writers"]

namespace Template

variable {γ : Type}

/-- The node with identifiers in their places. -/
def fill (f : γ → Gid) (node : Template γ) : NodeEntities where
  node := node.node
  readers := node.readers.map f
  writers := node.writers.map f

/-- What stands in the places of the identifiers. -/
def places (node : Template γ) : List γ :=
  node.readers ++ node.writers

/-- The octets are the value of this field. -/
def Field (written : γ → Bytes → Prop) (node : Template γ) : String → Bytes → Prop
  | "namespace", value => SpellsText node.node.ns value
  | "name", value => SpellsText node.node.name value
  | "readers", value => SpellsList written node.readers value
  | "writers", value => SpellsList written node.writers value
  | _, _ => False

/-- The octets spell the node. It stands in a list in a map, so three levels of nesting are taken
where its unknown entries begin. -/
def Spells (written : γ → Bytes → Prop) (node : Template γ) (octets : Bytes) : Prop :=
  Record fieldNames (node.Field written) (Snapshot.depthLimit - 3) octets

end Template

end NodeEntities

namespace Snapshot

/-- The fields of a snapshot. -/
def fieldNames : List String :=
  ["gid", "nodes"]

namespace Template

variable {γ : Type}

/-- The snapshot with identifiers in their places. -/
def fill (f : γ → Gid) (template : Template γ) : Snapshot where
  gid := f template.gid
  nodes := template.nodes.map (·.fill f)

/-- What stands in the places of the identifiers. -/
def places (template : Template γ) : List γ :=
  template.gid :: template.nodes.flatMap (·.places)

/-- The octets are the value of this field. -/
def Field (written : γ → Bytes → Prop) (template : Template γ) : String → Bytes → Prop
  | "gid", value => written template.gid value
  | "nodes", value => SpellsList (NodeEntities.Template.Spells written) template.nodes value
  | _, _ => False

/-- The octets spell the snapshot. -/
def Spells (written : γ → Bytes → Prop) (template : Template γ) (octets : Bytes) : Prop :=
  Record fieldNames (template.Field written) (depthLimit - 1) octets

end Template

end Snapshot

/-- The node with its own identifiers in their places. -/
def NodeEntities.template (entry : NodeEntities) : NodeEntities.Template Gid :=
  ⟨entry.node, entry.readers, entry.writers⟩

/-- The snapshot with its own identifiers in their places. -/
def Snapshot.template (snapshot : Snapshot) : Snapshot.Template Gid :=
  ⟨snapshot.gid, snapshot.nodes.map (·.template)⟩

/-- The octets spell the snapshot. -/
def Snapshot.Spells (snapshot : Snapshot) (octets : Bytes) : Prop :=
  snapshot.template.Spells Gid.Spells octets

/-- The octets spell a node, but a field is left out or there several times. -/
def NodeEntities.Flawed (octets : Bytes) : Prop :=
  FlawedRecord fieldNames
    (fun name value => ∃ node : NodeEntities.Template Gid, node.Field Gid.Spells name value)
    (fun _ _ => False) (Snapshot.depthLimit - 3) octets

/-- The octets spell a list of nodes some of which are flawed. -/
def NodeEntities.FlawedList (octets : Bytes) : Prop :=
  ∃ parts, Encloses 4 parts octets ∧
    (∀ part ∈ parts, (∃ node : NodeEntities.Template Gid, node.Spells Gid.Spells part) ∨
      NodeEntities.Flawed part) ∧
    ∃ part ∈ parts, NodeEntities.Flawed part

/-- The octets spell a snapshot, but in its map, or in that of a node, a field is left out or there
several times. -/
def Snapshot.Flawed (octets : Bytes) : Prop :=
  FlawedRecord fieldNames
    (fun name value => ∃ template : Snapshot.Template Gid, template.Field Gid.Spells name value)
    (fun name value => name = "nodes" ∧ NodeEntities.FlawedList value) (depthLimit - 1) octets

/-! ## The written form -/

namespace Cbor

theorem Head.spells_write (major : Nat) {n : Nat} (hn : n < 2 ^ 64) :
    Head.Spells major n (Head.write major n) := by
  unfold Head.write
  split_ifs with h24 h8 h16 h32
  · exact .narrow h24
  · exact .wide (by decide) h8
  · exact .wide (by decide) h16
  · exact .wide (by decide) h32
  · exact .wide (by decide) (by simpa using hn)

theorem piece_write (major : Nat) {content : Bytes} (h : content.length < 2 ^ 64) :
    Piece major content (Head.write major content.length ++ content) :=
  ⟨_, Head.spells_write major h, rfl⟩

theorem spellsText_write {s : String} (h : (Bytes.ofText s).length < 2 ^ 64) :
    SpellsText s (writeText s) :=
  ⟨[s], .whole (piece_write 3 h), String.empty_append⟩

theorem spellsList_write {α : Type} {written : α → Bytes → Prop} {xs : List α}
    (hlength : xs.length < 2 ^ 64) (write : α → Bytes) (hwrite : ∀ x ∈ xs, written x (write x)) :
    SpellsList written xs (writeList write xs) := by
  refine ⟨xs.map write, List.forall₂_map_right_iff.mpr (List.forall₂_same.mpr hwrite), ?_⟩
  have hhead := Head.spells_write 4 hlength
  rw [← List.length_map write] at hhead
  rw [writeList, List.flatMap_def, ← List.length_map write]
  exact .counted hhead

/-- Texts with the octets of values behind them are the parts of a map. -/
theorem forall₂_entries {entries : List (String × Bytes)}
    (hkeys : ∀ entry ∈ entries, (Bytes.ofText entry.1).length < 2 ^ 64) :
    List.Forall₂ (fun entry part =>
        ∃ key, Piece 3 (Bytes.ofText entry.1) key ∧ part = key ++ entry.2) entries
      (entries.map fun entry => writeText entry.1 ++ entry.2) :=
  List.forall₂_map_right_iff.mpr <| List.forall₂_same.mpr fun entry hentry =>
    ⟨_, piece_write 3 (hkeys entry hentry), rfl⟩

theorem spellsMap_write {entries : List (String × Bytes)} (hlength : entries.length < 2 ^ 64)
    (hkeys : ∀ entry ∈ entries, (Bytes.ofText entry.1).length < 2 ^ 64) :
    SpellsMap entries (writeRecord entries) := by
  have hhead := Head.spells_write 5 hlength
  rw [← List.length_map fun entry : String × Bytes => writeText entry.1 ++ entry.2] at hhead
  refine ⟨_, forall₂_entries hkeys, ?_⟩
  rw [writeRecord, List.flatMap_def,
    ← List.length_map fun entry : String × Bytes => writeText entry.1 ++ entry.2]
  exact .counted hhead

/-- Fields that are written one after the other, in any order, are a record. -/
theorem record_write {names : List String} {field : String → Bytes → Prop} {depth : Nat}
    {entries : List (String × Bytes)} (hnames : (entries.map Prod.fst).Perm names)
    (hnodup : names.Nodup) (hlength : entries.length < 2 ^ 64)
    (hkeys : ∀ name ∈ names, (Bytes.ofText name).length < 2 ^ 64)
    (hfields : ∀ entry ∈ entries, field entry.1 entry.2) :
    Record names field depth (writeRecord entries) := by
  have hmem : ∀ entry ∈ entries, entry.1 ∈ names :=
    fun entry hentry => hnames.subset (List.mem_map_of_mem hentry)
  refine ⟨entries, spellsMap_write hlength fun entry hentry => hkeys _ (hmem entry hentry),
    fun entry hentry => .known (hmem entry hentry) (hfields entry hentry), fun name hname => ?_⟩
  rw [occurrences, hnames.count_eq]
  exact List.count_eq_one_of_mem hnodup hname

end Cbor

/-- The written form of an identifier is one of its spellings. -/
theorem Gid.spells_toCbor (gid : Gid) : gid.Spells gid.toCbor := by
  refine ⟨.bytes, .bytes (piece_write 2 ?_)⟩
  rw [gid.length_toBytes]
  decide

theorem NodeEntities.spells_toCbor {entry : NodeEntities} (h : entry.Sized) :
    entry.template.Spells Gid.Spells entry.toCbor := by
  refine record_write (.refl _) (by decide) (by simp) (by decide) ?_
  simp only [List.forall_mem_cons, List.not_mem_nil, false_implies, implies_true, and_true]
  exact ⟨spellsText_write h.ns, spellsText_write h.name,
    spellsList_write (h.listed .reader) _ fun gid _ => gid.spells_toCbor,
    spellsList_write (h.listed .writer) _ fun gid _ => gid.spells_toCbor⟩

/-- The written form of a snapshot is one of its spellings. -/
theorem Snapshot.spells_toCbor {snapshot : Snapshot} (h : snapshot.Sized) :
    snapshot.Spells snapshot.toCbor := by
  have hnodes : SpellsList (NodeEntities.Template.Spells Gid.Spells)
      (snapshot.nodes.map (·.template)) (writeList NodeEntities.toCbor snapshot.nodes) := by
    obtain ⟨parts, hparts, hencloses⟩ := spellsList_write h.nodes _ fun entry hentry =>
      NodeEntities.spells_toCbor (h.entries entry hentry)
    exact ⟨parts, List.forall₂_map_left_iff.mpr hparts, hencloses⟩
  refine record_write (.refl _) (by decide) (by simp) (by decide) ?_
  simp only [List.forall_mem_cons, List.not_mem_nil, false_implies, implies_true, and_true]
  exact ⟨snapshot.gid.spells_toCbor, hnodes⟩

end DiscoveryGraph
