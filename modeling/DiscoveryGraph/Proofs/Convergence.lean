import DiscoveryGraph.Proofs.Reachable

/-!
# A merged snapshot is what the participant answers

The total state of a participant after a merge, compared with the snapshot that was merged: the
nodes and their order, the endpoints of each node, what waits on behalf of the participant, and
its enclave.
-/

namespace DiscoveryGraph.Graph

variable {g g' : Graph} {gid : Gid} {state state' : Snapshot} {id : EndpointId} {name : NodeName}

/-! ## The total state of a participant -/

theorem names_snapshot? (hstate : g.snapshot? gid = some state) :
    state.names = g.hostedNames gid := by
  obtain ⟨participant, hgid, rfl⟩ := Option.map_eq_some_iff.mp hstate
  have hhosted : g.hosted gid = participant.nodes := by simp [hosted, hgid]
  simp only [Snapshot.names, snapshotOf, List.map_filterMap, hostedNames, hhosted,
    NodeArena.address?, Option.map_map]
  rfl

theorem getD_names_snapshot? :
    ((g.snapshot? gid).map (·.names)).getD [] = g.hostedNames gid := by
  cases hstate : g.snapshot? gid with
  | some state => exact names_snapshot? hstate
  | none =>
    have hgid : g.participants[gid]? = none := Option.map_eq_none_iff.mp hstate
    simp [hostedNames, hosted, hgid]

/-- A participant lists under a node exactly the endpoints that belong to it, in order. -/
theorem WellFormed.listed_snapshot? (h : g.WellFormed) (hstate : g.snapshot? gid = some state)
    {entry : NodeEntities} (hentry : entry ∈ state.nodes) (kind : EndpointKind) :
    (entry.listed kind).Pairwise (compare · · = .lt) ∧
      ∀ endpoint, endpoint ∈ entry.listed kind ↔
        g.home? ⟨kind, endpoint⟩ = some ⟨gid, entry.node⟩ := by
  obtain ⟨participant, hgid, rfl⟩ := Option.map_eq_some_iff.mp hstate
  obtain ⟨node, hnode, rfl⟩ := List.mem_map.mp hentry
  obtain ⟨key, hkey, hget⟩ := List.mem_filterMap.mp hnode
  have hlisted : NodeEntities.listed
      { node := node.name, readers := node.listed .reader, writers := node.listed .writer } kind =
      node.listed kind := by
    cases kind <;> rfl
  have haddress : g.nodes.address? key = some ⟨gid, node.name⟩ := by
    have hhosted : key ∈ g.hosted gid := by simpa [hosted, hgid] using hkey
    obtain ⟨name, haddress⟩ := (h.mem_hosted_iff gid key).mp hhosted
    obtain ⟨other, hother, heq⟩ := NodeArena.address?_eq_some_iff.mp haddress
    rw [hget] at hother
    cases hother
    have hname : node.name = name := congrArg NodeAddress.name heq
    rw [haddress, hname]
  rw [hlisted]
  refine ⟨node.pairwise_listed kind, fun endpoint => ?_⟩
  rw [NodeRecord.mem_listed, h.home?_eq_some_iff haddress, ← h.lists_iff]
  simp [NodeArena.Lists, hget]

theorem gid_snapshot? (hstate : g.snapshot? gid = some state) : state.gid = gid := by
  obtain ⟨participant, -, rfl⟩ := Option.map_eq_some_iff.mp hstate
  rfl

theorem isSome_snapshot?_iff : (g.snapshot? gid).isSome ↔ gid ∈ g.participants := by
  simp [snapshot?]

theorem WellFormed.nodup_names_snapshot? (h : g.WellFormed)
    (hstate : g.snapshot? gid = some state) : state.names.Nodup :=
  names_snapshot? hstate ▸ h.nodup_hostedNames gid

/-- In its total state, a participant owns what is at home at its nodes. -/
theorem WellFormed.owner?_snapshot? (h : g.WellFormed) (hstate : g.snapshot? gid = some state) :
    state.owner? id = some name ↔ g.home? id = some ⟨gid, name⟩ := by
  have hat {entry : NodeEntities} (hentry : entry ∈ state.nodes) :
      id ∈ entry.ids ↔ g.home? id = some ⟨gid, entry.node⟩ := by
    rw [NodeEntities.mem_ids, (h.listed_snapshot? hstate hentry id.kind).2]
  constructor
  · intro howner
    obtain ⟨entry, hentry, rfl, hid⟩ := Snapshot.exists_entry_of_owner? howner
    exact (hat hentry).mp hid
  · intro hhome
    obtain ⟨key, hlink, haddress⟩ := Option.bind_eq_some_iff.mp hhome
    have hname : name ∈ state.names := by
      rw [names_snapshot? hstate]
      exact h.mem_hostedNames_iff.mpr ⟨key, haddress⟩
    obtain ⟨entry, hentry, rfl⟩ := List.mem_map.mp hname
    have hlists : state.Lists id := ⟨entry, hentry, (hat hentry).mpr hhome⟩
    obtain ⟨owner, howner⟩ := Option.isSome_iff_exists.mp (Snapshot.isSome_owner?_iff.mpr hlists)
    -- Whichever node comes first, the endpoint is at home there.
    obtain ⟨first, hfirst, rfl, hid⟩ := Snapshot.exists_entry_of_owner? howner
    have hnode : entry.node = first.node :=
      congrArg NodeAddress.name (Option.some.inj (hhome.symm.trans ((hat hfirst).mp hid)))
    rw [howner, hnode]

/-- The total states of a participant in two graphs list the same under a node of one name, if the
same is at home there. -/
theorem WellFormed.entry_eq_of_home? (h : g.WellFormed) (h' : g'.WellFormed)
    (hstate : g.snapshot? gid = some state) (hstate' : g'.snapshot? gid = some state')
    (hhome : ∀ id name, g.home? id = some ⟨gid, name⟩ ↔ g'.home? id = some ⟨gid, name⟩)
    {entry entry' : NodeEntities} (hentry : entry ∈ state.nodes) (hentry' : entry' ∈ state'.nodes)
    (hnode : entry.node = entry'.node) : entry = entry' := by
  refine NodeEntities.ext_listed hnode fun kind => ?_
  obtain ⟨hsorted, hmem⟩ := h.listed_snapshot? hstate hentry kind
  obtain ⟨hsorted', hmem'⟩ := h'.listed_snapshot? hstate' hentry' kind
  refine Gid.eq_of_pairwise hsorted hsorted' fun endpoint => ?_
  rw [hmem, hmem', hhome, hnode]

/-! ## After a merge -/

theorem reconcile_of_nodup {snapshot : Snapshot} (hnodup : snapshot.names.Nodup) :
    g.reconcile snapshot =
      { result := .ok (Merge.run g snapshot).summary
        graph := (Merge.run g snapshot).graph
        notified := (Merge.run g snapshot).graph.watched &&
          !(Merge.run g snapshot).summary.isNoop
        events := (Merge.run g snapshot).events ++
          [.reconciled snapshot.gid snapshot.digest (Merge.run g snapshot).summary] } := by
  rw [reconcile, Snapshot.repeatedNode?_eq_none_iff.mpr hnodup]

/-- A snapshot without repeated names is accepted. Afterwards the participant hosts exactly the
nodes of the snapshot, those that it had already first; each of them lists in ascending order the
known endpoints that the snapshot lists first under it; what waits on behalf of the participant
are exactly the unknown endpoints that the snapshot lists, if the preferences allow it; and the
enclave of a participant that was known is the same. -/
theorem reconcile_converges {snapshot : Snapshot} (hg : g.Reachable)
    (hnodup : snapshot.names.Nodup) :
    let former := ((g.snapshot? snapshot.gid).map (·.names)).getD []
    let g' := (g.reconcile snapshot).graph
    ∃ summary state,
      (g.reconcile snapshot).result = .ok summary ∧
      g'.snapshot? snapshot.gid = some state ∧
      state.names =
        former.filter (· ∈ snapshot.names) ++ snapshot.names.filter (· ∉ former) ∧
      (∀ entry ∈ state.nodes, ∀ kind, (entry.listed kind).Pairwise (compare · · = .lt) ∧
        ∀ endpoint, endpoint ∈ entry.listed kind ↔
          snapshot.owner? ⟨kind, endpoint⟩ = some entry.node ∧
            ⟨kind, endpoint⟩ ∈ g'.endpoints) ∧
      (g.prefs.reconcile.deferUnknownEndpoints = true → ∀ id name,
        g'.awaiting? id = some ⟨snapshot.gid, name⟩ ↔
          snapshot.owner? id = some name ∧ id ∉ g'.endpoints) ∧
      (g.prefs.reconcile.deferUnknownEndpoints = false → g'.pending = ∅) ∧
      ∀ participant, g.participants[snapshot.gid]? = some participant →
        ∃ participant', g'.participants[snapshot.gid]? = some participant' ∧
          participant'.enclave = participant.enclave := by
  intro former g'
  have hg' : g' = (Merge.run g snapshot).graph := by
    rw [show g' = (g.reconcile snapshot).graph from rfl, reconcile_of_nodup hnodup]
  have hc : Merge.Converged g snapshot g' := hg' ▸ Merge.converged_run hg.wellFormed hnodup
  have hformer : former = g.hostedNames snapshot.gid := getD_names_snapshot?
  obtain ⟨participant', hparticipant'⟩ :
      ∃ participant', g'.participants[snapshot.gid]? = some participant' := by
    have henclave := hc.enclave? snapshot.gid
    rw [if_pos rfl, enclave?, Option.map_eq_some_iff] at henclave
    obtain ⟨participant', hparticipant', -⟩ := henclave
    exact ⟨participant', hparticipant'⟩
  have hstate : g'.snapshot? snapshot.gid = some (g'.snapshotOf snapshot.gid participant') := by
    rw [snapshot?, hparticipant']
    rfl
  refine ⟨_, _, congrArg Outcome.result (reconcile_of_nodup hnodup), hstate, ?_, ?_, ?_, ?_, ?_⟩
  · rw [names_snapshot? hstate, hc.hostedNames, if_pos rfl, hformer]
  · intro entry hentry kind
    obtain ⟨hsorted, hlisted⟩ := hc.wellFormed.listed_snapshot? hstate hentry kind
    refine ⟨hsorted, fun endpoint => ?_⟩
    rw [hlisted, hc.home?_eq_some_iff, hc.keeps.mem_endpoints]
  · intro hon id name
    rw [hc.awaiting?_eq_some_iff, hc.keeps.mem_endpoints, MayWait]
    simp [hon]
  · intro hoff
    exact hc.wellFormed.tablesAgree.pending_off (hc.keeps.prefs ▸ hoff)
  · intro participant hparticipant
    refine ⟨participant', hparticipant', ?_⟩
    have henclave := hc.enclave? snapshot.gid
    simpa [enclave?, hparticipant, hparticipant'] using henclave

/-- A node that stays comes before a new one, though the snapshot lists the new one first. -/
theorem reconcile_converges_reordered :
    let g := (emptyWith .recycle .standard).run
      [.addParticipant .zero "", .addNode .zero ⟨"/", "a"⟩, .addNode .zero ⟨"/", "b"⟩]
    let snapshot : Snapshot := ⟨.zero, [⟨⟨"/", "c"⟩, [], []⟩, ⟨⟨"/", "b"⟩, [], [.zero]⟩]⟩
    snapshot.names.Nodup ∧ ∃ state,
      (g.reconcile snapshot).graph.snapshot? .zero = some state ∧
        state.names = [⟨"/", "b"⟩, ⟨"/", "c"⟩] := by
  intro g snapshot
  have hg : g.Reachable := ⟨_, _, _, rfl⟩
  have hnodup : snapshot.names.Nodup := by decide
  obtain ⟨-, state, -, hstate, hnames, -⟩ := reconcile_converges hg hnodup
  refine ⟨hnodup, state, hstate, hnames.trans ?_⟩
  simp only [g, snapshot]
  decide +kernel

end DiscoveryGraph.Graph
