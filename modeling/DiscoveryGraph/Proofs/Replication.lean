import DiscoveryGraph.Proofs.Discovery
import DiscoveryGraph.Proofs.Wire

/-!
# Replication

The total state of a participant is written in one graph, read back, merged into another graph and
completed there by announcing the endpoints that were missing. In the end both graphs give the
same total state of the participant.

* `discovered_run`: what a series of announcements does.
* `completed_run`: a merge, followed by the announcements that it waits for.
* `perm_nodes_replicated`: the whole way from one graph to the other.
-/

namespace DiscoveryGraph.Graph

variable {g g' : Graph} {gid : Gid} {snapshot state : Snapshot} {id : EndpointId} {name : NodeName}

/-! ## A series of announcements -/

/-- What a series of announcements does. Whoever waited for an endpoint that was not known has it
in the end. -/
structure Discovered (ids : List EndpointId) (g g' : Graph) : Prop extends SameNodes g g' where
  wellFormed : g'.WellFormed
  home? : ∀ next, g'.home? next =
    if next ∈ ids ∧ next ∉ g.endpoints then g.awaiting? next else g.home? next
  awaiting? : ∀ next, g'.awaiting? next = if next ∈ ids then none else g.awaiting? next

theorem discovered_run (h : g.WellFormed) (announcements : List Announcement) :
    Discovered (announcements.map (·.id)) g (g.run (announcements.map (·.command))) := by
  induction announcements generalizing g with
  | nil =>
    exact {
      toSameNodes := .refl g
      wellFormed := h
      home? := by simp [run]
      awaiting? := by simp [run] }
  | cons announcement rest ih =>
    obtain ⟨id, topic, type⟩ := announcement
    have hrun : g.run ((⟨id, topic, type⟩ :: rest).map Announcement.command) =
        (g.addEndpoint id topic type).graph.run (rest.map (·.command)) := rfl
    rw [hrun]
    by_cases hid : id ∈ g.endpoints
    · have hd := ih h
      rw [graph_addEndpoint_of_mem hid]
      exact {
        toSameNodes := hd.toSameNodes
        wellFormed := hd.wellFormed
        home? := by
          intro next
          rw [hd.home?]
          by_cases hnext : next = id <;> simp [hnext, hid]
        awaiting? := by
          intro next
          rw [hd.awaiting?]
          by_cases hnext : next = id
          · simp [hnext, h.awaiting?_of_mem hid]
          · simp [hnext] }
    · have ha := announced_addEndpoint h hid topic type
      have hd := ih ha.wellFormed
      exact {
        toSameNodes := ha.toSameNodes.trans hd.toSameNodes
        wellFormed := hd.wellFormed
        home? := by
          intro next
          simp only [hd.home?, ha.home?, ha.awaiting?, ha.mem_endpoints]
          by_cases hnext : next = id <;> simp [hnext, hid]
        awaiting? := by
          intro next
          rw [hd.awaiting?, ha.awaiting?]
          by_cases hnext : next = id <;> simp [hnext] }

/-! ## A merge and the announcements that it waits for -/

/-- The snapshot is merged into the graph, and nothing of it is left to wait for. -/
structure Completed (g : Graph) (snapshot : Snapshot) (g' : Graph) : Prop where
  wellFormed : g'.WellFormed
  registered : snapshot.gid ∈ g'.participants
  hostedNames : g'.hostedNames snapshot.gid =
    (g.hostedNames snapshot.gid).filter (· ∈ snapshot.names) ++
      snapshot.names.filter (· ∉ g.hostedNames snapshot.gid)
  home? : ∀ id name, g'.home? id = some ⟨snapshot.gid, name⟩ ↔ snapshot.owner? id = some name
  awaiting? : ∀ id name, g'.awaiting? id ≠ some ⟨snapshot.gid, name⟩

theorem completed_run (h : g.WellFormed) (hnodup : snapshot.names.Nodup)
    {announcements : List Announcement}
    (hready : ∀ id, snapshot.Lists id →
      id ∈ g.endpoints ∨ g.MayWait id ∧ id ∈ announcements.map (·.id)) :
    Completed g snapshot
      ((g.reconcile snapshot).graph.run (announcements.map (·.command))) := by
  have hmerge : (g.reconcile snapshot).graph = (Merge.run g snapshot).graph :=
    congrArg Outcome.graph (reconcile_of_nodup hnodup)
  rw [hmerge]
  have hc := Merge.converged_run h hnodup
  have hd := discovered_run hc.wellFormed announcements
  exact {
    wellFormed := hd.wellFormed
    registered := by
      rw [hd.participants, mem_participants_iff, hc.enclave?]
      simp
    hostedNames := by
      rw [hd.toSameNodes.hostedNames, hc.hostedNames, if_pos rfl]
    home? := by
      intro id name
      rw [hd.home?]
      -- A new endpoint goes to whoever waited for it, every other one stays where the merge left it.
      split
      · rename_i hnew
        rw [hc.awaiting?_eq_some_iff, and_iff_left_iff_imp]
        intro howner
        rcases hready id (Snapshot.lists_of_owner? howner) with hknown | ⟨hwaits, -⟩
        · exact absurd ((hc.keeps.mem_endpoints id).mpr hknown) hnew.2
        · exact hwaits
      · rename_i hold
        rw [hc.home?_eq_some_iff, and_iff_left_iff_imp]
        intro howner
        rcases hready id (Snapshot.lists_of_owner? howner) with hknown | ⟨hwaits, hannounced⟩
        · exact hknown
        · exact absurd ⟨hannounced, (hc.keeps.mem_endpoints id).not.mpr hwaits.1⟩ hold
    awaiting? := by
      intro id name
      rw [hd.awaiting?]
      split
      · exact fun hnone => nomatch hnone
      · rename_i hsilent
        rw [Ne, hc.awaiting?_eq_some_iff]
        rintro ⟨howner, hwaits⟩
        rcases hready id (Snapshot.lists_of_owner? howner) with hknown | ⟨-, hannounced⟩
        · exact hwaits.1 hknown
        · exact hsilent hannounced }

namespace Completed

variable (hc : Completed g snapshot g')
include hc

theorem perm_hostedNames (hnodup : snapshot.names.Nodup) :
    (g'.hostedNames snapshot.gid).Perm snapshot.names := by
  refine (List.perm_ext_iff_of_nodup (hc.wellFormed.nodup_hostedNames _) hnodup).mpr fun name => ?_
  rw [hc.hostedNames]
  by_cases hname : name ∈ g.hostedNames snapshot.gid <;> simp [hname]

theorem exists_state : ∃ state, g'.snapshot? snapshot.gid = some state :=
  Option.isSome_iff_exists.mp (isSome_snapshot?_iff.mpr hc.registered)

theorem names_state (hstate : g'.snapshot? snapshot.gid = some state) : state.names =
    (g.hostedNames snapshot.gid).filter (· ∈ snapshot.names) ++
      snapshot.names.filter (· ∉ g.hostedNames snapshot.gid) :=
  (names_snapshot? hstate).trans hc.hostedNames

theorem perm_names_state (hnodup : snapshot.names.Nodup)
    (hstate : g'.snapshot? snapshot.gid = some state) : state.names.Perm snapshot.names :=
  names_snapshot? hstate ▸ hc.perm_hostedNames hnodup

/-- What another graph gave as the total state is listed the same, node by node. -/
theorem entry_eq {source : Graph} (hsource : source.WellFormed)
    (hsent : source.snapshot? snapshot.gid = some snapshot)
    (hstate : g'.snapshot? snapshot.gid = some state) {entry entry' : NodeEntities}
    (hentry : entry ∈ state.nodes) (hentry' : entry' ∈ snapshot.nodes)
    (hnode : entry.node = entry'.node) : entry = entry' := by
  refine hc.wellFormed.entry_eq_of_home? hsource hstate hsent ?_ hentry hentry' hnode
  intro id name
  rw [hc.home?, hsource.owner?_snapshot? hsent]

theorem not_mem_hosted_of_pending {key : NodeKey} (hpending : g'.pending[id]? = some key) :
    key ∉ g'.hosted snapshot.gid := by
  intro hhosted
  obtain ⟨name, haddress⟩ := (hc.wellFormed.mem_hosted_iff _ key).mp hhosted
  exact hc.awaiting? id name ((hc.wellFormed.awaiting?_eq_some_iff haddress).mpr hpending)

end Completed

/-! ## From one graph to another -/

/-- The total state of a participant that is known to a graph can be sent to another graph where
associations may wait. Its octets are read back, and the merge is accepted. Once the listed
endpoints that the other graph did not know are announced there, in any order, the other graph
gives the same nodes with the same endpoints, and none of them waits for anything. If the other
graph did not know the participant, it gives the very same state with the same digest. -/
theorem perm_nodes_replicated {source target : Graph} (hsource : source.Reachable)
    (htarget : target.Reachable) (hon : target.prefs.reconcile.deferUnknownEndpoints = true)
    (hgid : gid ∈ source.participants) :
    ∃ sent, source.snapshot? gid = some sent ∧
      (sent.Sized → Snapshot.ofCbor sent.toCbor = .ok sent) ∧
      (∃ summary, (target.reconcile sent).result = .ok summary) ∧
      ∀ announcements : List Announcement,
        (∀ id, id ∈ announcements.map (·.id) ↔ sent.Lists id ∧ id ∉ target.endpoints) →
        let after := (target.reconcile sent).graph.run (announcements.map (·.command))
        ∃ state, after.snapshot? gid = some state ∧
          state.nodes.Perm sent.nodes ∧
          (∀ (id : EndpointId) key, after.pending[id]? = some key → key ∉ after.hosted gid) ∧
          (gid ∉ target.participants → state = sent ∧ state.digest = sent.digest) := by
  obtain ⟨sent, hsent⟩ := Option.isSome_iff_exists.mp (isSome_snapshot?_iff.mpr hgid)
  have hnodup : sent.names.Nodup := hsource.wellFormed.nodup_names_snapshot? hsent
  have hread (hsized : sent.Sized) : Snapshot.ofCbor sent.toCbor = .ok sent := by
    simpa using Snapshot.ofCbor_toCbor_append hsized []
  have hresult := congrArg Outcome.result (reconcile_of_nodup (g := target) hnodup)
  refine ⟨sent, hsent, hread, ⟨_, hresult⟩, ?_⟩
  intro announcements hannounced after
  obtain rfl : sent.gid = gid := gid_snapshot? hsent
  have hc : Completed target sent after := by
    refine completed_run htarget.wellFormed hnodup fun id hlists => ?_
    by_cases hknown : id ∈ target.endpoints
    · exact .inl hknown
    · exact .inr ⟨⟨hknown, hon⟩, (hannounced id).mpr ⟨hlists, hknown⟩⟩
  obtain ⟨state, hstate⟩ := hc.exists_state
  have hsame : ∀ entry ∈ state.nodes, ∀ entry' ∈ sent.nodes, entry.node = entry'.node →
      entry = entry' := fun entry hentry entry' hentry' =>
    hc.entry_eq hsource.wellFormed hsent hstate hentry hentry'
  refine ⟨state, hstate, ?_, fun id key => hc.not_mem_hosted_of_pending, ?_⟩
  · exact Snapshot.perm_nodes (hc.wellFormed.nodup_names_snapshot? hstate)
      (hc.perm_names_state hnodup hstate) hsame
  · intro hnew
    have hformer : target.hostedNames sent.gid = [] := by
      simp [hostedNames, hosted, Std.ExtTreeMap.getElem?_eq_none hnew]
    have hnodes : state.nodes.map id = sent.nodes.map id := by
      refine Snapshot.map_nodes_eq ?_ hsame
      rw [hc.names_state hstate, hformer]
      simp
    have hequal : state = sent := by
      rw [List.map_id, List.map_id] at hnodes
      calc state = ⟨state.gid, state.nodes⟩ := rfl
        _ = ⟨sent.gid, sent.nodes⟩ := by rw [gid_snapshot? hstate, hnodes]
        _ = sent := rfl
    exact ⟨hequal, congrArg Snapshot.digest hequal⟩

/-- A reader that the other graph does not know travels with its node; the other graph hosts one
of the two nodes already, and another one that goes away. -/
theorem perm_nodes_replicated_reader :
    let source := (emptyWith .recycle .standard).run
      [.addParticipant .zero "", .addNode .zero ⟨"/", "a"⟩, .addNode .zero ⟨"/", "b"⟩,
        .addEndpoint ⟨.reader, .zero⟩ "rt/chatter" "T",
        .associate ⟨.reader, .zero⟩ .zero ⟨"/", "a"⟩]
    let target := (emptyWith .recycle .standard).run
      [.addParticipant .zero "", .addNode .zero ⟨"/", "b"⟩, .addNode .zero ⟨"/", "c"⟩]
    let sent : Snapshot := ⟨.zero, [⟨⟨"/", "a"⟩, [.zero], []⟩, ⟨⟨"/", "b"⟩, [], []⟩]⟩
    let reader : Announcement := ⟨⟨.reader, .zero⟩, "rt/chatter", "U"⟩
    source.snapshot? .zero = some sent ∧ Snapshot.ofCbor sent.toCbor = .ok sent ∧
      ∃ state, ((target.reconcile sent).graph.run [reader.command]).snapshot? .zero =
        some state ∧ state.nodes.Perm sent.nodes := by
  intro source target sent reader
  have hsource : source.Reachable := ⟨_, _, _, rfl⟩
  have htarget : target.Reachable := ⟨_, _, _, rfl⟩
  have hsent : source.snapshot? .zero = some sent := by
    simp only [source, sent]
    decide +kernel
  have hon : target.prefs.reconcile.deferUnknownEndpoints = true := by
    simp only [target]
    decide +kernel
  have hempty : target.endpoints = ∅ := by
    simp only [target]
    decide +kernel
  have hgid : .zero ∈ source.participants := isSome_snapshot?_iff.mp (by simp [hsent])
  have hsized : sent.Sized := by decide
  have hannounced : ∀ id, id ∈ [reader].map (·.id) ↔ sent.Lists id ∧ id ∉ target.endpoints := by
    intro id
    simp [hempty, sent, reader, Snapshot.Lists, NodeEntities.ids, eq_comm]
  obtain ⟨sent', hsent', hread, -, hcomplete⟩ := perm_nodes_replicated hsource htarget hon hgid
  obtain rfl : sent' = sent := Option.some.inj (hsent'.symm.trans hsent)
  obtain ⟨state, hstate, hperm, -⟩ := hcomplete [reader] hannounced
  exact ⟨hsent, hread hsized, state, hstate, hperm⟩

end DiscoveryGraph.Graph
