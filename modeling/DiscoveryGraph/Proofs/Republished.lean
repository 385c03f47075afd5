import DiscoveryGraph.Proofs.Canonical
import DiscoveryGraph.Proofs.Replication

/-!
# The digest of a snapshot that was merged

A snapshot is merged into a graph that knows all the endpoints which the snapshot lists, and the
graph is asked for the total state of the participant. The answer has the same nodes with the same
sets of endpoints. The nodes that were there before come first, however, in the order in which
they were created, while the digest depends on the order of nodes. So the digest is kept as long
as the snapshot lists the nodes that stay in front and in this order, and in no other case do both
have the same canonical octets.

* `Completed.alike`: nodes of the same name list the same sets of endpoints.
* `filter_append_filter_eq_iff`: when a merge leaves the order of nodes alone.
* `canonical_republished_iff`: when the answer has the canonical octets of the snapshot.
-/

namespace DiscoveryGraph

/-- No endpoint is listed under two nodes. -/
def Snapshot.ListsOnce (snapshot : Snapshot) : Prop :=
  ∀ entry ∈ snapshot.nodes, ∀ other ∈ snapshot.nodes, ∀ id ∈ entry.ids, id ∈ other.ids →
    entry = other

instance (snapshot : Snapshot) : Decidable snapshot.ListsOnce :=
  inferInstanceAs (Decidable (∀ entry ∈ snapshot.nodes, ∀ other ∈ snapshot.nodes,
    ∀ id ∈ entry.ids, id ∈ other.ids → entry = other))

theorem Snapshot.ListsOnce.owner?_eq_some_iff {snapshot : Snapshot} (honce : snapshot.ListsOnce)
    (hnodup : snapshot.names.Nodup) {entry : NodeEntities} (hentry : entry ∈ snapshot.nodes)
    (id : EndpointId) : snapshot.owner? id = some entry.node ↔ id ∈ entry.ids := by
  constructor
  · intro howner
    obtain ⟨first, hfirst, hnode, hid⟩ := Snapshot.exists_entry_of_owner? howner
    rwa [List.inj_on_of_nodup_map hnodup hfirst hentry hnode] at hid
  · intro hid
    have hlists : snapshot.Lists id := ⟨entry, hentry, hid⟩
    obtain ⟨name, howner⟩ := Option.isSome_iff_exists.mp (Snapshot.isSome_owner?_iff.mpr hlists)
    obtain ⟨first, hfirst, rfl, hid'⟩ := Snapshot.exists_entry_of_owner? howner
    rw [howner, honce first hfirst entry hentry id hid' hid]

/-- A node that lists the same without repetitions lists no more. -/
theorem NodeEntities.Alike.sized {entry entry' : NodeEntities} (h : entry.Alike entry')
    (hnodup : ∀ kind, (entry.listed kind).Nodup) (h' : entry'.Sized) : entry.Sized where
  ns := h.node ▸ h'.ns
  name := h.node ▸ h'.name
  listed kind := by
    have hsubset : entry.listed kind ⊆ entry'.listed kind := fun gid => (h.listed kind gid).mp
    have hle : (entry.listed kind).length ≤ (entry'.listed kind).length :=
      (List.subperm_of_subset (hnodup kind) hsubset).length_le
    exact Nat.lt_of_le_of_lt hle (h'.listed kind)

/-- The names that stay, followed by the new ones, are in the order of the list exactly if those
that stay are in front of it. -/
theorem filter_append_filter_eq_iff {former names : List NodeName} (hnodup : names.Nodup) :
    former.filter (· ∈ names) ++ names.filter (· ∉ former) = names ↔
      former.filter (· ∈ names) <+: names := by
  constructor
  · intro h
    exact ⟨_, h⟩
  · rintro ⟨new, hnames⟩
    have hnodup' : (former.filter (· ∈ names) ++ new).Nodup := by
      rw [hnames]
      exact hnodup
    have hdisjoint := List.disjoint_of_nodup_append hnodup'
    have hkept : (former.filter (· ∈ names)).filter (· ∉ former) = [] := by
      rw [List.filter_eq_nil_iff]
      intro name hname
      simpa using (List.mem_filter.mp hname).1
    have hnew : new.filter (· ∉ former) = new := by
      rw [List.filter_eq_self]
      intro name hname
      have hmem : name ∈ names := by
        rw [← hnames]
        exact List.mem_append_right _ hname
      have hfresh : name ∉ former := fun hformer =>
        hdisjoint (List.mem_filter.mpr ⟨hformer, by simpa using hmem⟩) hname
      simpa using hfresh
    have hfilter : names.filter (· ∉ former) = new := by
      calc names.filter (· ∉ former)
          = (former.filter (· ∈ names) ++ new).filter (· ∉ former) := by rw [hnames]
        _ = new := by rw [List.filter_append, hkept, hnew, List.nil_append]
    rw [hfilter, hnames]

end DiscoveryGraph

namespace DiscoveryGraph.Graph

variable {g g' : Graph} {snapshot state : Snapshot}

namespace Completed

variable (hc : Completed g snapshot g') (hnodup : snapshot.names.Nodup)
  (honce : snapshot.ListsOnce) (hstate : g'.snapshot? snapshot.gid = some state)
include hc hnodup honce hstate

theorem alike {entry entry' : NodeEntities} (hentry : entry ∈ state.nodes)
    (hentry' : entry' ∈ snapshot.nodes) (hnode : entry.node = entry'.node) :
    entry.Alike entry' where
  node := hnode
  listed kind gid := by
    rw [(hc.wellFormed.listed_snapshot? hstate hentry kind).2, hc.home?, hnode,
      honce.owner?_eq_some_iff hnodup hentry', NodeEntities.mem_ids]

theorem sized (hsized : snapshot.Sized) : state.Sized := by
  have hnames : state.names.Perm snapshot.names := hc.perm_names_state hnodup hstate
  constructor
  · have hlength : state.nodes.length = snapshot.nodes.length := by
      simpa [Snapshot.names] using hnames.length_eq
    exact hlength ▸ hsized.nodes
  · intro entry hentry
    have hname : entry.node ∈ snapshot.names := hnames.mem_iff.mp (List.mem_map_of_mem hentry)
    obtain ⟨entry', hentry', hnode⟩ := List.mem_map.mp hname
    refine (hc.alike hnodup honce hstate hentry hentry' hnode.symm).sized ?_
      (hsized.entries entry' hentry')
    exact fun kind => Gid.nodup_of_pairwise (hc.wellFormed.listed_snapshot? hstate hentry kind).1

theorem canonical_eq (hsame : state.names = snapshot.names) :
    state.canonical = snapshot.canonical := by
  refine Snapshot.canonical_congr (gid_snapshot? hstate) (Snapshot.map_nodes_eq hsame ?_)
  intro entry hentry entry' hentry' hnode
  exact Digest.node_congr (hc.alike hnodup honce hstate hentry hentry' hnode)

theorem names_eq_of_canonical_eq (hsized : snapshot.Sized)
    (heq : state.canonical = snapshot.canonical) : state.names = snapshot.names := by
  have hsized' : state.Sized := hc.sized hnodup honce hstate hsized
  exact Snapshot.names_eq_of_alike (Snapshot.alike_of_canonical_eq hsized' hsized heq).2

end Completed

/-- A snapshot with distinct names is merged that lists known endpoints only, each of them under
one node. The participant then answers with the same nodes, each with the same sets of readers and
writers. The answer has the digest of the snapshot if the nodes that the participant hosted before
and still hosts are in front in the snapshot, in the same order; otherwise the canonical octets
differ. -/
theorem canonical_republished_iff (hg : g.Reachable) (hnodup : snapshot.names.Nodup)
    (hknown : ∀ id, snapshot.Lists id → id ∈ g.endpoints) (honce : snapshot.ListsOnce) :
    let former := ((g.snapshot? snapshot.gid).map (·.names)).getD []
    ∃ state, (g.reconcile snapshot).graph.snapshot? snapshot.gid = some state ∧
      state.names.Perm snapshot.names ∧
      (∀ entry ∈ state.nodes, ∀ entry' ∈ snapshot.nodes, entry.node = entry'.node →
        entry.Alike entry') ∧
      (former.filter (· ∈ snapshot.names) <+: snapshot.names →
        state.digest = snapshot.digest) ∧
      (snapshot.Sized → (state.canonical = snapshot.canonical ↔
        former.filter (· ∈ snapshot.names) <+: snapshot.names)) := by
  intro former
  have hready : ∀ id, snapshot.Lists id →
      id ∈ g.endpoints ∨ g.MayWait id ∧ id ∈ ([] : List Announcement).map (·.id) :=
    fun id hlists => .inl (hknown id hlists)
  have hc : Completed g snapshot (g.reconcile snapshot).graph :=
    completed_run hg.wellFormed hnodup hready
  obtain ⟨state, hstate⟩ := hc.exists_state
  have hformer : former = g.hostedNames snapshot.gid := getD_names_snapshot?
  have hsame : state.names = snapshot.names ↔
      former.filter (· ∈ snapshot.names) <+: snapshot.names := by
    rw [hc.names_state hstate, hformer]
    exact filter_append_filter_eq_iff hnodup
  refine ⟨state, hstate, hc.perm_names_state hnodup hstate, ?_, ?_, ?_⟩
  · intro entry hentry entry' hentry'
    exact hc.alike hnodup honce hstate hentry hentry'
  · intro hprefix
    exact congrArg Blake3.hash (hc.canonical_eq hnodup honce hstate (hsame.mpr hprefix))
  · intro hsized
    rw [← hsame]
    exact ⟨hc.names_eq_of_canonical_eq hnodup honce hstate hsized,
      hc.canonical_eq hnodup honce hstate⟩

/-- The snapshot lists the two nodes the other way round. -/
theorem canonical_republished_iff_reordered :
    let g := (emptyWith .recycle .standard).run
      [.addEndpoint ⟨.reader, .zero⟩ "t" "T", .addParticipant .zero "",
        .addNode .zero ⟨"ns", "a"⟩, .addNode .zero ⟨"ns", "b"⟩]
    let snapshot : Snapshot := ⟨.zero, [⟨⟨"ns", "b"⟩, [.zero], []⟩, ⟨⟨"ns", "a"⟩, [], []⟩]⟩
    snapshot.names.Nodup ∧ (∀ id, snapshot.Lists id → id ∈ g.endpoints) ∧ snapshot.ListsOnce ∧
      snapshot.Sized ∧ ∃ state,
        (g.reconcile snapshot).graph.snapshot? .zero = some state ∧
        state.canonical ≠ snapshot.canonical ∧ state.digest ≠ snapshot.digest := by
  intro g snapshot
  have hg : g.Reachable := ⟨_, _, _, rfl⟩
  have hnodup : snapshot.names.Nodup := by decide
  have honce : snapshot.ListsOnce := by decide
  have hknown : ∀ id, snapshot.Lists id → id ∈ g.endpoints := by
    rintro id ⟨entry, hentry, hid⟩
    have hreader : id = ⟨.reader, .zero⟩ := by
      simp only [snapshot, List.mem_cons, List.not_mem_nil, or_false] at hentry
      rcases hentry with rfl | rfl
      · simpa [NodeEntities.ids] using hid
      · simp [NodeEntities.ids] at hid
    simp only [hreader, g]
    decide +kernel
  have hsized : snapshot.Sized := by decide
  have hformer : ¬ (((g.snapshot? snapshot.gid).map (·.names)).getD []).filter
      (· ∈ snapshot.names) <+: snapshot.names := by
    simp only [g, snapshot]
    decide +kernel
  have hdigest : ((g.reconcile snapshot).graph.snapshot? .zero).map (·.digest) ≠
      some snapshot.digest := by
    simp only [g, snapshot]
    decide +kernel
  obtain ⟨state, hstate, -, -, -, hcanonical⟩ := canonical_republished_iff hg hnodup hknown honce
  refine ⟨hnodup, hknown, honce, hsized, state, hstate, (hcanonical hsized).not.mpr hformer, ?_⟩
  intro heq
  rw [show (g.reconcile snapshot).graph.snapshot? .zero = some state from hstate] at hdigest
  exact hdigest (congrArg some heq)

end DiscoveryGraph.Graph
