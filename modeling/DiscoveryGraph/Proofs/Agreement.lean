import DiscoveryGraph.Proofs.Convergence

/-!
# Graphs that agree with a snapshot

When a snapshot has nothing to change. `Agrees` says that a graph is as a merge leaves it, except
that nodes of the participant may still wait for endpoints which the snapshot does not list. A
merge into such a graph finds nothing to count, but it does make these nodes cease to wait.

* `isNoop_of_agrees`, `agrees_of_isNoop`: a merge counts no change exactly if the graph agrees
  with the snapshot.
* `graph_run_of_agrees`: what a merge then changes all the same, without a report.
* `graph_run_eq_self_iff`: when a merge leaves a graph as it is, in particular when the same
  snapshot has been merged right before.
-/

namespace DiscoveryGraph

open DiscoveryGraph.Graph

/-- The participant is as the snapshot says. Its nodes may wait for more endpoints. -/
structure Graph.Agrees (g : Graph) (snapshot : Snapshot) : Prop where
  known : snapshot.gid ∈ g.participants
  mem_hostedNames : ∀ name, name ∈ g.hostedNames snapshot.gid ↔ name ∈ snapshot.names
  home? : ∀ id name, g.home? id = some ⟨snapshot.gid, name⟩ ↔
    snapshot.owner? id = some name ∧ id ∈ g.endpoints
  awaiting? : ∀ id name, snapshot.owner? id = some name → g.MayWait id →
    g.awaiting? id = some ⟨snapshot.gid, name⟩

namespace Merge

variable {m m' m'' : Merge} {g : Graph} {snapshot : Snapshot} {entry : NodeEntities}

/-- Nothing has happened but that some associations no longer wait. -/
structure Retained (m m' : Merge) : Prop where
  graph : m'.graph = { m.graph with pending := m'.graph.pending }
  pending : ∀ (id : EndpointId) (key : NodeKey), m'.graph.pending[id]? = some key →
    m.graph.pending[id]? = some key
  summary : m'.summary = m.summary
  events : m'.events = m.events

namespace Retained

theorem refl (m : Merge) : Retained m m :=
  ⟨rfl, fun _ _ => id, rfl, rfl⟩

theorem trans (h : Retained m m') (h' : Retained m' m'') : Retained m m'' where
  graph := by
    rw [h'.graph, h.graph]
  pending id key hid := h.pending id key (h'.pending id key hid)
  summary := h'.summary.trans h.summary
  events := h'.events.trans h.events

theorem retainPending (m : Merge) (key : NodeKey) (wanted : Std.ExtTreeSet EndpointId) :
    Retained m (m.retainPending key wanted) where
  graph := rfl
  pending id other hid := by
    simp only [Merge.retainPending, Std.ExtTreeMap.getElem?_filter',
      Option.filter_eq_some_iff] at hid
    exact hid.1
  summary := rfl
  events := rfl

theorem rewired (h : Retained m m') : Rewired m.graph m'.graph :=
  h.graph ▸ .withPending _ _

theorem link? (h : Retained m m') (id : EndpointId) : m'.graph.link? id = m.graph.link? id := by
  rw [h.graph]
  rfl

theorem home? (h : Retained m m') (id : EndpointId) : m'.graph.home? id = m.graph.home? id := by
  rw [Graph.home?, h.link?, funext h.rewired.address?, Graph.home?]

theorem awaiting? (h : Retained m m') {id : EndpointId} {address : NodeAddress}
    (hid : m'.graph.awaiting? id = some address) : m.graph.awaiting? id = some address := by
  obtain ⟨key, hkey, haddress⟩ := Option.bind_eq_some_iff.mp hid
  rw [h.rewired.address?] at haddress
  exact Option.bind_eq_some_iff.mpr ⟨key, h.pending id key hkey, haddress⟩

end Retained

/-! ## Merges that count nothing -/

/-- A node of the snapshot that costs nothing has at most ceased to wait. -/
theorem retained_mergeNode (h : m.graph.WellFormed) (hgid : snapshot.gid ∈ m.graph.participants)
    (hsummary : (mergeNode snapshot m entry).summary = m.summary) :
    Retained m (mergeNode snapshot m entry) := by
  have he := ensured_ensureNode h hgid entry.node
  have hs := settled_mergeNode h hgid entry
  have hname : entry.node ∈ m.graph.hostedNames snapshot.gid := by
    by_contra hlacks
    have hadded := congrArg Summary.nodesAdded (hs.summary.symm.trans hsummary)
    rw [he.summary, if_neg hlacks] at hadded
    simp at hadded
  have hsame := ensureNode_of_mem h hname
  rw [hsame] at hs
  rw [hs.eq_of_summary h hsummary]
  exact .retainPending m _ _

theorem retained_foldl (h : m.graph.WellFormed) (hgid : snapshot.gid ∈ m.graph.participants)
    (hnodup : snapshot.names.Nodup) (entries : List NodeEntities)
    (hentries : entries.Sublist snapshot.nodes) (hstart : m.summary = .none)
    (hend : (entries.foldl (mergeNode snapshot) m).summary = .none) :
    Retained m (entries.foldl (mergeNode snapshot) m) := by
  induction entries generalizing m with
  | nil => exact .refl m
  | cons entry entries ih =>
    have hfirst := merged_mergeNode h hgid hnodup (hentries.subset List.mem_cons_self)
    have hknown : snapshot.gid ∈ (mergeNode snapshot m entry).graph.participants := by
      rw [mem_participants_iff, hfirst.enclave?, ← mem_participants_iff]
      exact hgid
    have hrest : entries.Sublist snapshot.nodes := (List.sublist_cons_self _ _).trans hentries
    -- What has been counted is never taken back.
    have hnone : (mergeNode snapshot m entry).summary = .none := by
      have hle := (merged_foldl hfirst.wellFormed hknown hnodup entries hrest).total_le
      have hzero : (entries.foldl (mergeNode snapshot) (mergeNode snapshot m entry)).summary.total =
          0 := by
        rw [← List.foldl_cons, hend]
        rfl
      exact Summary.eq_none_of_total (by omega)
    exact (retained_mergeNode h hgid (hnone.trans hstart.symm)).trans
      (ih hfirst.wellFormed hknown hrest hnone hend)

/-- Where the participant and the listed nodes are known and no others, the merge starts with the
first node. -/
theorem run_eq_foldl (hknown : snapshot.gid ∈ g.participants)
    (hstale : staleKeys g snapshot.gid snapshot.names = []) :
    run g snapshot =
      snapshot.nodes.foldl (mergeNode snapshot) { graph := g, summary := .none, events := [] } := by
  simp only [run, ensureParticipant, if_pos hknown, removeStale, hstale]
  rfl

/-- A merge that has counted nothing has at most made nodes cease to wait. -/
theorem retained_run (h : g.WellFormed) (hnodup : snapshot.names.Nodup)
    (hnoop : (run g snapshot).summary = .none) :
    Retained { graph := g, summary := .none, events := [] } (run g snapshot) := by
  let start : Merge := { graph := g, summary := .none, events := [] }
  let hosted := start.ensureParticipant snapshot.gid
  have hregistered : Registered snapshot.gid start hosted :=
    registered_ensureParticipant h snapshot.gid
  have hpruned := pruned_removeStale hregistered.wellFormed snapshot.gid snapshot.names
  have hnone : (hosted.removeStale snapshot.gid snapshot.names).summary = .none := by
    have hgid : snapshot.gid ∈
        (hosted.removeStale snapshot.gid snapshot.names).graph.participants := by
      rw [mem_participants_iff, hpruned.enclave?, hregistered.enclave?]
      simp
    have hle : _ ≤ (run g snapshot).summary.total :=
      (merged_foldl hpruned.wellFormed hgid hnodup snapshot.nodes (.refl _)).total_le
    rw [hnoop] at hle
    exact Summary.eq_none_of_total (Nat.le_zero.mp hle)
  rw [summary_removeStale] at hnone
  -- The participant was known, since its creation would have been counted.
  have hknown : snapshot.gid ∈ g.participants := by
    by_contra hlacks
    have hcreated := congrArg Summary.participantCreated hnone
    simp only [hosted, ensureParticipant, start, if_neg hlacks] at hcreated
    cases hcreated
  have hsame : hosted = start := if_pos hknown
  -- No node was stale, since its removal would have been counted.
  have hstale : staleKeys g snapshot.gid snapshot.names = [] := by
    have hremoved := congrArg Summary.nodesRemoved hnone
    rw [hsame] at hremoved
    simpa [start, Summary.none] using hremoved
  rw [run_eq_foldl hknown hstale] at hnoop ⊢
  exact retained_foldl h hknown hnodup snapshot.nodes (.refl _) rfl hnoop

/-! ## Agreement -/

theorem Converged.agrees {g' : Graph} (h : Converged g snapshot g') : g'.Agrees snapshot where
  known := by
    rw [mem_participants_iff, h.enclave?]
    simp
  mem_hostedNames name := by
    rw [h.hostedNames, if_pos rfl, List.mem_append, List.mem_filter, List.mem_filter]
    by_cases hold : name ∈ g.hostedNames snapshot.gid <;> simp [hold]
  home? id name := by
    rw [h.home?_eq_some_iff, h.keeps.mem_endpoints]
  awaiting? id name howner hwait :=
    h.awaiting?_eq_some_iff.mpr ⟨howner, (h.keeps.mayWait id).mp hwait⟩

theorem Retained.agrees (h : Retained m m') (ha : m'.graph.Agrees snapshot) :
    m.graph.Agrees snapshot where
  known := by
    rw [← h.rewired.participants]
    exact ha.known
  mem_hostedNames name := by
    rw [← h.rewired.hostedNames]
    exact ha.mem_hostedNames name
  home? id name := by
    rw [← h.home?, ← h.rewired.mem_endpoints]
    exact ha.home? id name
  awaiting? id name howner hwait :=
    h.awaiting? (ha.awaiting? id name howner ((h.rewired.mayWait id).mpr hwait))

/-- A merge that has counted nothing has found a graph that agrees with the snapshot. -/
theorem agrees_of_isNoop (h : g.WellFormed) (hnodup : snapshot.names.Nodup)
    (hnoop : (run g snapshot).summary = .none) : g.Agrees snapshot :=
  (retained_run h hnodup hnoop).agrees (converged_run h hnodup).agrees

/-- A node of the snapshot costs nothing in a graph that agrees with it. -/
theorem summary_mergeNode_of_agrees (h : m.graph.WellFormed) (ha : m.graph.Agrees snapshot)
    (hnodup : snapshot.names.Nodup) (hentry : entry ∈ snapshot.nodes) :
    (mergeNode snapshot m entry).summary = m.summary := by
  have he := ensured_ensureNode h ha.known entry.node
  have hs := settled_mergeNode h ha.known entry
  have hsame := ensureNode_of_mem h
    ((ha.mem_hostedNames entry.node).mpr (List.mem_map_of_mem hentry))
  rw [hsame] at hs he
  have hwanted := Snapshot.mem_ofList_owned_iff hnodup hentry
  refine (hs.summary_eq_iff h).mpr ⟨?_, ?_, ?_⟩
  · intro id hid hknown
    rw [← h.home?_eq_some_iff he.address?, ha.home?]
    exact ⟨(hwanted id).mp hid, hknown⟩
  · intro id hlink
    rw [← h.home?_eq_some_iff he.address?, ha.home?] at hlink
    exact (hwanted id).mpr hlink.1
  · intro id hid hwait
    rw [← h.awaiting?_eq_some_iff he.address?]
    exact ha.awaiting? id entry.node ((hwanted id).mp hid) hwait

theorem agrees_mergeNode (h : m.graph.WellFormed) (ha : m.graph.Agrees snapshot)
    (hnodup : snapshot.names.Nodup) (hentry : entry ∈ snapshot.nodes) :
    (mergeNode snapshot m entry).graph.Agrees snapshot := by
  have hm := merged_mergeNode h ha.known hnodup hentry
  have hr := retained_mergeNode h ha.known (summary_mergeNode_of_agrees h ha hnodup hentry)
  exact {
    known := by
      rw [hr.rewired.participants]
      exact ha.known
    mem_hostedNames := by
      intro name
      rw [hr.rewired.hostedNames]
      exact ha.mem_hostedNames name
    home? := by
      intro id name
      rw [hr.home?, hr.rewired.mem_endpoints]
      exact ha.home? id name
    awaiting? := by
      intro id name howner hwait
      rw [hr.rewired.mayWait] at hwait
      rw [hm.awaiting?, Snapshot.place_singleton, ha.awaiting? id name howner hwait]
      by_cases hname : name = entry.node
      · simp [howner, hwait, hname]
      · simp [howner, hname, Option.filter_some] }

theorem summary_foldl_of_agrees (h : m.graph.WellFormed) (ha : m.graph.Agrees snapshot)
    (hnodup : snapshot.names.Nodup) (entries : List NodeEntities)
    (hentries : entries.Sublist snapshot.nodes) :
    (entries.foldl (mergeNode snapshot) m).summary = m.summary := by
  induction entries generalizing m with
  | nil => rfl
  | cons entry entries ih =>
    have hentry := hentries.subset List.mem_cons_self
    have hfirst := merged_mergeNode h ha.known hnodup hentry
    rw [List.foldl_cons, ih hfirst.wellFormed (agrees_mergeNode h ha hnodup hentry)
      ((List.sublist_cons_self _ _).trans hentries)]
    exact summary_mergeNode_of_agrees h ha hnodup hentry

/-- A merge into a graph that agrees with the snapshot counts nothing. -/
theorem isNoop_of_agrees (h : g.WellFormed) (hnodup : snapshot.names.Nodup)
    (ha : g.Agrees snapshot) : (run g snapshot).summary = .none := by
  have hstale : staleKeys g snapshot.gid snapshot.names = [] := by
    refine List.eq_nil_iff_forall_not_mem.mpr fun key hkey => ?_
    obtain ⟨name, haddress, hname⟩ := (mem_staleKeys_iff h).mp hkey
    exact hname ((ha.mem_hostedNames name).mp (h.mem_hostedNames_iff.mpr ⟨key, haddress⟩))
  rw [run_eq_foldl ha.known hstale]
  exact summary_foldl_of_agrees h ha hnodup snapshot.nodes (.refl _)

end Merge

namespace Graph

variable {g : Graph} {snapshot : Snapshot} {summary : Summary}

/-! ## What merges leave unreported -/

/-- The graph in which nothing waits on behalf of the participant except for what the snapshot
lists. -/
def withoutUnlisted (g : Graph) (snapshot : Snapshot) : Graph :=
  { g with pending := g.pending.filter fun id key =>
      !(g.nodes.address? key).any (·.participant = snapshot.gid) || (snapshot.owner? id).isSome }

/-- The graph agrees with the snapshot, and a node of the participant waits for an endpoint that
the snapshot does not list. -/
def Forgets (g : Graph) (snapshot : Snapshot) : Prop :=
  g.Agrees snapshot ∧
    ∃ id name, g.awaiting? id = some ⟨snapshot.gid, name⟩ ∧ snapshot.owner? id = none

/-- Nothing is left out exactly if the snapshot lists all that waits on behalf of the
participant. -/
theorem pending_withoutUnlisted_iff (h : g.WellFormed) :
    (g.withoutUnlisted snapshot).pending = g.pending ↔
      ∀ id name, g.awaiting? id = some ⟨snapshot.gid, name⟩ → (snapshot.owner? id).isSome := by
  simp only [withoutUnlisted, Std.ExtTreeMap.filter_eq_self_iff]
  constructor
  · intro hkept id name hwaits
    obtain ⟨key, hkey, haddress⟩ := Option.bind_eq_some_iff.mp hwaits
    obtain ⟨hmem, heq⟩ := Std.ExtTreeMap.getElem?_eq_some_iff.mp hkey
    have hkeep := hkept id hmem
    simpa [heq, haddress] using hkeep
  · intro hlisted id hmem
    obtain ⟨address, haddress⟩ := h.awaiting_live id g.pending[id] (by simp)
    by_cases hgid : address.participant = snapshot.gid
    · have hwaits : g.awaiting? id = some ⟨snapshot.gid, address.name⟩ := by
        rw [← hgid]
        exact (h.awaiting?_eq_some_iff haddress).mpr (by simp)
      simp [hlisted id address.name hwaits]
    · simp [haddress, hgid]

theorem withoutUnlisted_eq_self_iff :
    g.withoutUnlisted snapshot = g ↔ (g.withoutUnlisted snapshot).pending = g.pending := by
  refine ⟨congrArg Graph.pending, fun hpending => ?_⟩
  cases g
  simpa [withoutUnlisted] using hpending

/-- What is left out is missing in the count. -/
theorem pendingCount_withoutUnlisted (hne : (g.withoutUnlisted snapshot).pending ≠ g.pending) :
    (g.withoutUnlisted snapshot).pendingCount < g.pendingCount := by
  refine Nat.lt_of_le_of_ne Std.ExtTreeMap.size_filter_le_size fun hsize => hne ?_
  exact Std.ExtTreeMap.filter_eq_self_iff.mpr (Std.ExtTreeMap.size_filter_eq_size_iff.mp hsize)

/-- What waits in a graph that agrees with the snapshot goes on to wait exactly if it does so on
behalf of another participant or the snapshot lists it. -/
theorem awaiting?_run_of_agrees (h : g.WellFormed) (hnodup : snapshot.names.Nodup)
    (ha : g.Agrees snapshot) {id : EndpointId} {address : NodeAddress}
    (hwaits : g.awaiting? id = some address) :
    (Merge.run g snapshot).graph.awaiting? id = some address ↔
      address.participant ≠ snapshot.gid ∨ (snapshot.owner? id).isSome := by
  have hc := Merge.converged_run h hnodup
  have hr := Merge.retained_run h hnodup (Merge.isNoop_of_agrees h hnodup ha)
  cases howner : snapshot.owner? id with
  | none => simp [hc.awaiting?, howner, hwaits, Option.filter_some]
  | some name =>
    obtain ⟨key, hkey, -⟩ := Option.bind_eq_some_iff.mp hwaits
    have hplaced := hc.awaiting?_eq_some_iff.mpr ⟨howner, h.mayWait hkey⟩
    have hsame := (hr.awaiting? hplaced).symm.trans hwaits
    simp [hplaced, hsame]

theorem graph_run_of_agrees (h : g.WellFormed) (hnodup : snapshot.names.Nodup)
    (ha : g.Agrees snapshot) : (Merge.run g snapshot).graph = g.withoutUnlisted snapshot := by
  have hc := Merge.converged_run h hnodup
  have hr := Merge.retained_run h hnodup (Merge.isNoop_of_agrees h hnodup ha)
  refine (h.retain _).ext hc.wellFormed ((Rewired.withPending g _).symm.trans hr.rewired)
    hr.link? fun id => ?_
  simp only [Std.ExtTreeMap.getElem?_filter']
  have hsubset := hr.pending id
  cases hid : g.pending[id]? with
  | none =>
    rw [Option.filter_none, Option.eq_none_iff_forall_ne_some]
    intro key hkey
    have hold := hsubset key hkey
    simp [hid] at hold
  | some key =>
    obtain ⟨address, haddress⟩ := h.awaiting_live id key hid
    have hwaits := (h.awaiting?_eq_some_iff haddress).mpr hid
    have hstays := awaiting?_run_of_agrees h hnodup ha hwaits
    rw [hc.wellFormed.awaiting?_eq_some_iff (by rw [hr.rewired.address?, haddress])] at hstays
    have hkeep : (!(g.nodes.address? key).any (·.participant = snapshot.gid) ||
        (snapshot.owner? id).isSome) = true ↔
          address.participant ≠ snapshot.gid ∨ (snapshot.owner? id).isSome := by
      simp [haddress]
    rw [Option.filter_some]
    split
    · rename_i hkept
      exact hstays.mpr (hkeep.mp hkept)
    · rename_i hdropped
      rw [Option.eq_none_iff_forall_ne_some]
      intro other hother
      have hsame : other = key := by
        have hold := hsubset other hother
        rw [hid] at hold
        exact (Option.some.inj hold).symm
      exact hdropped (hkeep.mpr (hstays.mp (hsame ▸ hother)))

theorem reconcile_eq_ok_iff :
    (g.reconcile snapshot).result = .ok summary ↔
      snapshot.names.Nodup ∧ (Merge.run g snapshot).summary = summary := by
  unfold reconcile
  cases hrepeated : snapshot.repeatedNode? with
  | some node =>
    have hnodup : ¬ snapshot.names.Nodup := by
      rw [← Snapshot.repeatedNode?_eq_none_iff, hrepeated]
      simp
    simp [hnodup]
  | none => simp [Snapshot.repeatedNode?_eq_none_iff.mp hrepeated]

/-- Whether a snapshot is refused is a matter of the snapshot alone. -/
theorem result_reconcile_eq_error_iff {error : GraphError} :
    (g.reconcile snapshot).result = .error error ↔
      ∃ node, snapshot.repeatedNode? = some node ∧ error = .duplicateSnapshotNode node := by
  unfold reconcile
  cases snapshot.repeatedNode? with
  | some node => simp [eq_comm]
  | none => simp

theorem graph_reconcile (haccepted : (g.reconcile snapshot).result = .ok summary) :
    (g.reconcile snapshot).graph = (Merge.run g snapshot).graph :=
  congrArg Outcome.graph (reconcile_of_nodup (reconcile_eq_ok_iff.mp haccepted).1)

/-- A merge leaves a graph as it is exactly if there is nothing to count and nothing that would
cease to wait. -/
theorem graph_run_eq_self_iff (h : g.WellFormed) (hnodup : snapshot.names.Nodup) :
    (Merge.run g snapshot).graph = g ↔
      g.Agrees snapshot ∧
        ∀ id name, g.awaiting? id = some ⟨snapshot.gid, name⟩ → (snapshot.owner? id).isSome := by
  constructor
  · intro hsame
    have hc := Merge.converged_run h hnodup
    rw [hsame] at hc
    refine ⟨hc.agrees, fun id name hwaits => ?_⟩
    simp [(hc.awaiting?_eq_some_iff.mp hwaits).1]
  · rintro ⟨ha, hlisted⟩
    rw [graph_run_of_agrees h hnodup ha, withoutUnlisted_eq_self_iff]
    exact (pending_withoutUnlisted_iff h).mpr hlisted

/-- Merging a snapshot again right away leaves everything as it is. -/
theorem reconcile_twice (hg : g.Reachable)
    (haccepted : (g.reconcile snapshot).result = .ok summary) :
    let first := (g.reconcile snapshot).graph
    ∃ again, (first.reconcile snapshot).result = .ok again ∧ again.isNoop = true ∧
      (first.reconcile snapshot).notified = false ∧ (first.reconcile snapshot).graph = first := by
  intro first
  have hnodup := (reconcile_eq_ok_iff.mp haccepted).1
  have hfirst : first = (Merge.run g snapshot).graph := graph_reconcile haccepted
  have hc : Merge.Converged g snapshot first := hfirst ▸ Merge.converged_run hg.wellFormed hnodup
  have hnoop := Merge.isNoop_of_agrees hc.wellFormed hnodup hc.agrees
  have hsame : (Merge.run first snapshot).graph = first := by
    refine (graph_run_eq_self_iff hc.wellFormed hnodup).mpr ⟨hc.agrees, fun id name hwaits => ?_⟩
    simp [(hc.awaiting?_eq_some_iff.mp hwaits).1]
  rw [reconcile_of_nodup hnodup]
  refine ⟨_, rfl, ?_, ?_, hsame⟩
  · rw [hnoop]
    rfl
  · simp [hnoop, Summary.isNoop]

/-- The first merge creates a participant with two nodes that are both listed with a known and an
unknown endpoint. The second one finds nothing to do. -/
theorem reconcile_twice_shared :
    let g := (emptyWith .recycle .standard).run [.addEndpoint ⟨.reader, .zero⟩ "rt/chatter" "T"]
    let snapshot : Snapshot :=
      ⟨.zero, [⟨⟨"/", "a"⟩, [.zero], [.zero]⟩, ⟨⟨"/", "b"⟩, [.zero], [.zero]⟩]⟩
    let first := (g.reconcile snapshot).graph
    (g.reconcile snapshot).result = .ok ⟨true, 2, 0, 1, 0, 1⟩ ∧
      (first.reconcile snapshot).graph = first := by
  intro g snapshot first
  have hg : g.Reachable := ⟨_, _, _, rfl⟩
  have hsummary : (Merge.run g snapshot).summary = ⟨true, 2, 0, 1, 0, 1⟩ := by
    simp only [g, snapshot]
    decide +kernel
  have haccepted : (g.reconcile snapshot).result = .ok ⟨true, 2, 0, 1, 0, 1⟩ :=
    reconcile_eq_ok_iff.mpr ⟨by decide, hsummary⟩
  obtain ⟨again, -, -, -, hsame⟩ := reconcile_twice hg haccepted
  exact ⟨haccepted, hsame⟩

/-- A merge counts no change exactly if the graph stays as it is, and the watcher is told exactly
if it does not, unless the merge makes a graph that agrees with the snapshot forget what waits.
Then the count of waiting associations drops, nothing else changes, and nobody is told. -/
theorem reconcile_unreported_iff (hg : g.Reachable) (hwatched : g.watched = true)
    (haccepted : (g.reconcile snapshot).result = .ok summary) :
    let after := g.reconcile snapshot
    (((summary.isNoop = true ↔ after.graph = g) ∧
        (after.notified = true ↔ after.graph ≠ g)) ↔ ¬ g.Forgets snapshot) ∧
      (g.Forgets snapshot →
        summary.isNoop = true ∧ after.notified = false ∧
          after.graph = g.withoutUnlisted snapshot ∧
          after.graph.pendingCount < g.pendingCount) := by
  intro after
  obtain ⟨hnodup, rfl⟩ := reconcile_eq_ok_iff.mp haccepted
  have h := hg.wellFormed
  have hgraph : after.graph = (Merge.run g snapshot).graph := graph_reconcile haccepted
  have hnoop : (Merge.run g snapshot).summary.isNoop = true ↔ g.Agrees snapshot := by
    rw [Summary.isNoop, decide_eq_true_iff]
    exact ⟨Merge.agrees_of_isNoop h hnodup, Merge.isNoop_of_agrees h hnodup⟩
  have htold : after.notified = true ↔ ¬ g.Agrees snapshot := by
    have hkept := (Merge.converged_run h hnodup).keeps.watched
    have hnotified : after.notified = _ := congrArg Outcome.notified (reconcile_of_nodup hnodup)
    rw [hnotified, hkept, hwatched, ← hnoop]
    simp
  have hlisted : ¬ g.Forgets snapshot ↔ (g.Agrees snapshot → ∀ id name,
      g.awaiting? id = some ⟨snapshot.gid, name⟩ → (snapshot.owner? id).isSome) := by
    simp [Forgets, Option.isSome_iff_ne_none]
  have hsame : after.graph = g ↔ g.Agrees snapshot ∧ ¬ g.Forgets snapshot := by
    rw [hgraph, graph_run_eq_self_iff h hnodup, hlisted]
    exact and_congr_right fun ha => ⟨fun hall _ => hall, fun hall => hall ha⟩
  refine ⟨?_, fun hforgets => ?_⟩
  · rw [hnoop, htold, Ne, hsame]
    have hagrees : g.Forgets snapshot → g.Agrees snapshot := And.left
    tauto
  · have ha := hforgets.1
    have hdropped : after.graph = g.withoutUnlisted snapshot :=
      hgraph.trans (graph_run_of_agrees h hnodup ha)
    refine ⟨hnoop.mpr ha, ?_, hdropped, ?_⟩
    · simpa using mt htold.mp (not_not.mpr ha)
    · rw [hdropped]
      refine pendingCount_withoutUnlisted fun hpending => ?_
      exact hlisted.mpr (fun _ => (pending_withoutUnlisted_iff h).mp hpending) hforgets

/-- A snapshot that only stops to list an endpoint that is waited for changes the graph, but the
merge counts nothing and nobody is told. -/
theorem reconcile_unreported_ghost :
    let g := (emptyWith .recycle .standard).run
      [.watch, .reconcile ⟨.zero, [⟨⟨"/", "a"⟩, [.zero], []⟩]⟩]
    let snapshot : Snapshot := ⟨.zero, [⟨⟨"/", "a"⟩, [], []⟩]⟩
    g.watched = true ∧ (g.reconcile snapshot).result = .ok .none ∧
      (g.reconcile snapshot).notified = false ∧
        (g.reconcile snapshot).graph.pendingCount < g.pendingCount := by
  intro g snapshot
  have hg : g.Reachable := ⟨_, _, _, rfl⟩
  have hwatched : g.watched = true := by
    simp only [g]
    decide +kernel
  have hnodup : snapshot.names.Nodup := by decide
  have hsummary : (Merge.run g snapshot).summary = .none := by
    simp only [g, snapshot]
    decide +kernel
  have haccepted : (g.reconcile snapshot).result = .ok .none :=
    reconcile_eq_ok_iff.mpr ⟨hnodup, hsummary⟩
  have hwaits : g.awaiting? ⟨.reader, .zero⟩ = some ⟨.zero, ⟨"/", "a"⟩⟩ := by
    simp only [g]
    decide +kernel
  have hforgets : g.Forgets snapshot :=
    ⟨Merge.agrees_of_isNoop hg.wellFormed hnodup hsummary, _, _, hwaits, by decide⟩
  obtain ⟨-, hunreported⟩ := reconcile_unreported_iff hg hwatched haccepted
  obtain ⟨-, htold, -, hcount⟩ := hunreported hforgets
  exact ⟨hwatched, haccepted, htold, hcount⟩

end Graph

end DiscoveryGraph
