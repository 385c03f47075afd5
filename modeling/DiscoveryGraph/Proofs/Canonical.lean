import DiscoveryGraph.Digest
import DiscoveryGraph.Proofs.Listing
import DiscoveryGraph.Proofs.Octets

/-!
# Canonical octets

The octets behind a digest tell apart what the digest is meant to tell apart, and nothing else:
the nodes in their order, with their names and their sets of readers and writers. They are read
from the left; each text and each list stands behind its length, so that it is known where it
ends.

* `NodeEntities.Alike`: the same node with the same sets of endpoints.
* `Digest.node_congr`, `Digest.node_append_inj`: nodes have the same octets exactly if they are
  alike.
* `Snapshot.canonical_eq_iff_alike`: these are the octets that are hashed, and snapshots have the
  same ones exactly if their nodes are alike, place by place.
-/

namespace DiscoveryGraph

variable {entry entry' : NodeEntities} {xs ys rest rest' : Bytes}

/-- The same name, the same set of readers and the same set of writers. -/
structure NodeEntities.Alike (entry entry' : NodeEntities) : Prop where
  node : entry.node = entry'.node
  listed : ∀ kind gid, gid ∈ entry.listed kind ↔ gid ∈ entry'.listed kind

theorem Gid.toBytes_injective : Function.Injective Gid.toBytes := by
  intro gid gid' h
  have hgid := Gid.ofBytes?_toBytes gid
  rw [h, Gid.ofBytes?_toBytes] at hgid
  exact (Option.some.inj hgid).symm

namespace Digest

theorem length_append_inj {m n : Nat} (hm : m < 2 ^ 64) (hn : n < 2 ^ 64)
    (h : length m ++ xs = length n ++ ys) : m = n ∧ xs = ys := by
  have hwidth : (length m).length = (length n).length := by simp [length]
  obtain ⟨hlength, htail⟩ := List.append_inj h hwidth
  exact ⟨Bytes.littleEndian_inj (by simpa using hm) (by simpa using hn) hlength, htail⟩

theorem text_append_inj {s t : String} (hs : (Bytes.ofText s).length < 2 ^ 64)
    (ht : (Bytes.ofText t).length < 2 ^ 64) (h : text s ++ xs = text t ++ ys) :
    s = t ∧ xs = ys := by
  simp only [text, List.append_assoc] at h
  obtain ⟨hlength, htail⟩ := length_append_inj hs ht h
  obtain ⟨htext, hrest⟩ := List.append_inj htail hlength
  exact ⟨Bytes.ofText_injective htext, hrest⟩

/-! ## Sets of identifiers -/

theorem gids_congr {xs ys : List Gid} (h : ∀ gid, gid ∈ xs ↔ gid ∈ ys) : gids xs = gids ys := by
  have hset : Std.ExtTreeSet.ofList xs = Std.ExtTreeSet.ofList ys := by
    apply Std.ExtTreeSet.ext_mem
    intro gid
    simp [Std.ExtTreeSet.mem_ofList, h]
  rw [gids, gids, hset]

/-- All identifiers have the same width. -/
theorem flatMap_toBytes_append_inj {xs ys : List Gid} (hlength : xs.length = ys.length)
    (h : xs.flatMap Gid.toBytes ++ rest = ys.flatMap Gid.toBytes ++ rest') :
    xs = ys ∧ rest = rest' := by
  induction xs generalizing ys with
  | nil =>
    obtain rfl : ys = [] := List.eq_nil_of_length_eq_zero hlength.symm
    exact ⟨rfl, h⟩
  | cons x xs ih =>
    obtain ⟨y, ys, rfl⟩ := List.exists_cons_of_length_eq_add_one hlength.symm
    simp only [List.flatMap_cons, List.append_assoc] at h
    obtain ⟨hbytes, htail⟩ := List.append_inj h (by simp)
    obtain ⟨hxs, hrest⟩ := ih (by simpa using hlength) htail
    exact ⟨by rw [Gid.toBytes_injective hbytes, hxs], hrest⟩

theorem length_toList_ofList_le (xs : List Gid) :
    (Std.ExtTreeSet.ofList xs).toList.length ≤ xs.length := by
  rw [Std.ExtTreeSet.length_toList]
  exact Std.ExtTreeSet.size_ofList_le

theorem gids_append_inj {gids gids' : List Gid} (h : gids.length < 2 ^ 64)
    (h' : gids'.length < 2 ^ 64) (heq : Digest.gids gids ++ rest = Digest.gids gids' ++ rest') :
    (∀ gid, gid ∈ gids ↔ gid ∈ gids') ∧ rest = rest' := by
  simp only [Digest.gids, List.append_assoc] at heq
  obtain ⟨hlength, htail⟩ := length_append_inj
    (Nat.lt_of_le_of_lt (length_toList_ofList_le gids) h)
    (Nat.lt_of_le_of_lt (length_toList_ofList_le gids') h') heq
  obtain ⟨hlist, hrest⟩ := flatMap_toBytes_append_inj hlength htail
  refine ⟨fun gid => ?_, hrest⟩
  have hmem (xs : List Gid) : gid ∈ xs ↔ gid ∈ (Std.ExtTreeSet.ofList xs).toList := by
    simp [Std.ExtTreeSet.mem_ofList]
  rw [hmem, hlist, ← hmem]

/-! ## Nodes -/

theorem node_congr (h : entry.Alike entry') : node entry = node entry' := by
  have hreaders : gids entry.readers = gids entry'.readers := gids_congr (h.listed .reader)
  have hwriters : gids entry.writers = gids entry'.writers := gids_congr (h.listed .writer)
  rw [node, node, h.node, hreaders, hwriters]

theorem node_append_inj (h : entry.Sized) (h' : entry'.Sized)
    (heq : node entry ++ rest = node entry' ++ rest') : entry.Alike entry' ∧ rest = rest' := by
  simp only [node, List.append_assoc] at heq
  obtain ⟨hns, hafter⟩ := text_append_inj h.ns h'.ns heq
  obtain ⟨hname, hlists⟩ := text_append_inj h.name h'.name hafter
  obtain ⟨hreaders, htail⟩ := gids_append_inj (h.listed .reader) (h'.listed .reader) hlists
  obtain ⟨hwriters, hrest⟩ := gids_append_inj (h.listed .writer) (h'.listed .writer) htail
  refine ⟨⟨?_, ?_⟩, hrest⟩
  · calc entry.node = ⟨entry.node.ns, entry.node.name⟩ := rfl
      _ = ⟨entry'.node.ns, entry'.node.name⟩ := by rw [hns, hname]
      _ = entry'.node := rfl
  · rintro (_ | _)
    · exact hreaders
    · exact hwriters

theorem flatMap_node_inj {entries entries' : List NodeEntities}
    (h : ∀ entry ∈ entries, entry.Sized) (h' : ∀ entry ∈ entries', entry.Sized)
    (hlength : entries.length = entries'.length)
    (heq : entries.flatMap node ++ rest = entries'.flatMap node ++ rest') :
    List.Forall₂ NodeEntities.Alike entries entries' ∧ rest = rest' := by
  induction entries generalizing entries' with
  | nil =>
    obtain rfl : entries' = [] := List.eq_nil_of_length_eq_zero hlength.symm
    exact ⟨.nil, heq⟩
  | cons entry entries ih =>
    obtain ⟨entry', entries', rfl⟩ := List.exists_cons_of_length_eq_add_one hlength.symm
    simp only [List.flatMap_cons, List.append_assoc] at heq
    obtain ⟨halike, htail⟩ :=
      node_append_inj (h entry List.mem_cons_self) (h' entry' List.mem_cons_self) heq
    obtain ⟨hentries, hrest⟩ := ih (fun next hnext => h next (List.mem_cons_of_mem _ hnext))
      (fun next hnext => h' next (List.mem_cons_of_mem _ hnext)) (by simpa using hlength) htail
    exact ⟨.cons halike hentries, hrest⟩

end Digest

namespace Snapshot

variable {snapshot other : Snapshot}

theorem canonical_congr (hgid : snapshot.gid = other.gid)
    (hnodes : snapshot.nodes.map Digest.node = other.nodes.map Digest.node) :
    snapshot.canonical = other.canonical := by
  have hlength : snapshot.nodes.length = other.nodes.length := by
    simpa using congrArg List.length hnodes
  rw [canonical, canonical, hgid, hlength, List.flatMap_def, List.flatMap_def, hnodes]

theorem names_eq_of_alike (h : List.Forall₂ NodeEntities.Alike snapshot.nodes other.nodes) :
    snapshot.names = other.names := by
  have hnodes : List.Forall₂ (fun entry entry' => entry.node = entry'.node)
      snapshot.nodes other.nodes := h.imp fun _ _ halike => halike.node
  rw [← List.forall₂_eq_eq_eq, names, names, List.forall₂_map_left_iff, List.forall₂_map_right_iff]
  exact hnodes

theorem alike_of_canonical_eq (h : snapshot.Sized) (h' : other.Sized)
    (heq : snapshot.canonical = other.canonical) :
    snapshot.gid = other.gid ∧ List.Forall₂ NodeEntities.Alike snapshot.nodes other.nodes := by
  simp only [canonical, List.append_assoc] at heq
  have hbehind := List.append_cancel_left heq
  obtain ⟨hgid, hcounted⟩ := List.append_inj hbehind (by simp)
  obtain ⟨hlength, hnodes⟩ := Digest.length_append_inj h.nodes h'.nodes hcounted
  have hend : snapshot.nodes.flatMap Digest.node ++ [] = other.nodes.flatMap Digest.node ++ [] := by
    simpa using hnodes
  obtain ⟨halike, -⟩ := Digest.flatMap_node_inj h.entries h'.entries hlength hend
  exact ⟨Gid.toBytes_injective hgid, halike⟩

theorem canonical_eq_of_alike (hgid : snapshot.gid = other.gid)
    (halike : List.Forall₂ NodeEntities.Alike snapshot.nodes other.nodes) :
    snapshot.canonical = other.canonical := by
  have hnodes : List.Forall₂ (fun entry entry' => Digest.node entry = Digest.node entry')
      snapshot.nodes other.nodes := halike.imp fun _ _ => Digest.node_congr
  refine canonical_congr hgid ?_
  rw [← List.forall₂_eq_eq_eq, List.forall₂_map_left_iff, List.forall₂_map_right_iff]
  exact hnodes

/-- The digest is the hash of the canonical octets. Two snapshots whose lengths can be written have
the same canonical octets exactly if they are for the same participant and list as many nodes, and
the nodes at each place have the same name, the same set of readers and the same set of writers. So
the digest depends neither on the order of identifiers in a list nor on their repetition. -/
theorem canonical_eq_iff_alike (snapshot other : Snapshot) :
    snapshot.digest = Blake3.hash snapshot.canonical ∧
    (snapshot.Sized → other.Sized →
      (snapshot.canonical = other.canonical ↔ snapshot.gid = other.gid ∧
        List.Forall₂ NodeEntities.Alike snapshot.nodes other.nodes)) ∧
    (snapshot.gid = other.gid → List.Forall₂ NodeEntities.Alike snapshot.nodes other.nodes →
      snapshot.digest = other.digest) := by
  refine ⟨rfl, fun h h' => ?_, fun hgid halike => ?_⟩
  · exact ⟨alike_of_canonical_eq h h', fun hsame => canonical_eq_of_alike hsame.1 hsame.2⟩
  · exact congrArg Blake3.hash (canonical_eq_of_alike hgid halike)

/-- A list that is written in another order with a repetition has the same digest. An octet that
slides from the namespace into the name does not go unnoticed. -/
theorem canonical_eq_iff_alike_slid :
    let one : Gid := ⟨.replicate gidWidth 1⟩
    let snapshot : Snapshot := ⟨.zero, [⟨⟨"ab", "c"⟩, [.zero, one], []⟩]⟩
    let shuffled : Snapshot := ⟨.zero, [⟨⟨"ab", "c"⟩, [one, .zero, one], []⟩]⟩
    let slid : Snapshot := ⟨.zero, [⟨⟨"a", "bc"⟩, [.zero, one], []⟩]⟩
    (snapshot.Sized ∧ shuffled.Sized ∧ slid.Sized) ∧
      snapshot.digest = shuffled.digest ∧ snapshot.canonical ≠ slid.canonical := by
  intro one snapshot shuffled slid
  have hsized : snapshot.Sized := by decide
  have hsized' : slid.Sized := by decide
  have halike : List.Forall₂ NodeEntities.Alike snapshot.nodes shuffled.nodes := by
    refine .cons ⟨rfl, ?_⟩ .nil
    rintro (_ | _) gid
    · simp only [NodeEntities.listed, List.mem_cons, List.not_mem_nil]
      tauto
    · rfl
  refine ⟨⟨hsized, by decide, hsized'⟩, (canonical_eq_iff_alike _ _).2.2 rfl halike, ?_⟩
  intro hsame
  obtain ⟨-, hnodes⟩ := ((canonical_eq_iff_alike _ _).2.1 hsized hsized').mp hsame
  cases hnodes with
  | cons hfirst _ => exact absurd hfirst.node (by decide)

end Snapshot

end DiscoveryGraph
