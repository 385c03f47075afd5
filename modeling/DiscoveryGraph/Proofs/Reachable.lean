import DiscoveryGraph.Graph.Command
import DiscoveryGraph.Proofs.Merge

/-!
# Reachable graphs

Every request keeps a graph well-formed, whether it is carried out or refused, so that every graph
that commands lead to from one without content is well-formed.

* `Reachable.wellFormed`: the invariant along every run.
* `WellFormed.tablesAgree`: what this says about the tables that a graph consists of.
-/

namespace DiscoveryGraph.Graph

variable {g g' : Graph} {id : EndpointId} {gid : Gid} {name : NodeName}

namespace WellFormed

/-! ## Endpoints -/

/-- An endpoint may be announced, and is no longer waited for. -/
theorem announce (h : g.WellFormed) (hid : id ∉ g.endpoints) (topic type : String)
    (pending : Std.ExtTreeMap EndpointId NodeKey)
    (hpending : ∀ (next : EndpointId) (key : NodeKey), pending[next]? = some key →
      g.pending[next]? = some key ∧ next ≠ id) :
    ({ g with
      endpoints := g.endpoints.insert id (.announced topic type)
      pending } : Graph).WellFormed := by
  refine h.of_sameNodes ⟨rfl, rfl, rfl, fun _ => rfl⟩ ?_ ?_
  · intro next key
    have hlink : g.link? id = none := by
      rw [link?, Std.ExtTreeMap.getElem?_eq_none hid]
      rfl
    rw [h.lists_iff]
    simp only [link?, Std.ExtTreeMap.getElem?_insert, Std.LawfulEqCmp.compare_eq_iff_eq]
    split
    · rename_i heq
      subst heq
      rw [← link?, hlink]
      simp [Endpoint.announced]
    · rfl
  · intro next key hnext
    obtain ⟨hold, hne⟩ := hpending next key hnext
    refine ⟨h.awaiting_live next key hold, ?_, h.awaiting_allowed next key hold⟩
    simp only [Std.ExtTreeMap.mem_insert, Std.LawfulEqCmp.compare_eq_iff_eq, not_or]
    exact ⟨hne.symm, h.awaiting_unknown next key hold⟩

theorem addEndpoint (h : g.WellFormed) (id : EndpointId) (topic type : String) :
    (g.addEndpoint id topic type).graph.WellFormed := by
  unfold Graph.addEndpoint
  by_cases hid : id ∈ g.endpoints
  · rw [if_pos hid]
    exact h
  · rw [if_neg hid]
    cases hwaiting : g.pending[id]? with
    | none =>
      refine h.announce hid topic type g.pending fun next key hnext => ⟨hnext, ?_⟩
      rintro rfl
      rw [hwaiting] at hnext
      cases hnext
    | some key =>
      have hawaited := h.announce hid topic type (g.pending.erase id) (by
        intro next key hnext
        simp only [Std.ExtTreeMap.getElem?_erase, Std.LawfulEqCmp.compare_eq_iff_eq] at hnext
        split at hnext
        · cases hnext
        · rename_i hne
          exact ⟨hnext, Ne.symm hne⟩)
      dsimp only
      split
      · exact hawaited
      · rename_i done hdone
        exact hawaited.attach? hdone

/-- An endpoint that belongs to no node may be forgotten. -/
theorem forget (h : g.WellFormed) (hid : g.link? id = none) :
    ({ g with endpoints := g.endpoints.erase id } : Graph).WellFormed := by
  refine h.of_sameNodes ⟨rfl, rfl, rfl, fun _ => rfl⟩ ?_ ?_
  · intro next key
    rw [h.lists_iff]
    simp only [link?, Std.ExtTreeMap.getElem?_erase, Std.LawfulEqCmp.compare_eq_iff_eq]
    split
    · rename_i heq
      rw [← heq, ← link?, hid]
      simp
    · rfl
  · intro next key hnext
    refine ⟨h.awaiting_live next key hnext, ?_, h.awaiting_allowed next key hnext⟩
    simp [h.awaiting_unknown next key hnext]

theorem removeEndpoint (h : g.WellFormed) (id : EndpointId) :
    (g.removeEndpoint id).graph.WellFormed := by
  unfold Graph.removeEndpoint
  cases hid : g.endpoints[id]? with
  | none => exact h
  | some endpoint =>
    cases hlink : endpoint.link with
    | none =>
      have hunlinked : g.link? id = none := by simp [link?, hid, hlink]
      simp only [hlink]
      exact h.forget hunlinked
    | some key =>
      -- The endpoint leaves its node first, and is forgotten then.
      have hdetach : g.detach? id key = some { g with
          endpoints := g.endpoints.insert id endpoint.unlinked
          nodes := g.nodes.detach key id } := by
        simp [Graph.detach?, hid, hlink]
      have hunlinked : link? _ id = none := (link?_detach? hdetach id).trans (if_pos rfl)
      have hforget := (h.detach? hdetach).forget hunlinked
      have herase : (g.endpoints.insert id endpoint.unlinked).erase id = g.endpoints.erase id := by
        apply Std.ExtTreeMap.ext_getElem?
        intro next
        simp only [Std.ExtTreeMap.getElem?_erase, Std.ExtTreeMap.getElem?_insert]
        split <;> simp_all
      rw [herase] at hforget
      simp only [hlink]
      exact hforget

/-! ## Participants and nodes -/

theorem addParticipant (h : g.WellFormed) (gid : Gid) (enclave : String) :
    (g.addParticipant gid enclave).graph.WellFormed := by
  unfold Graph.addParticipant
  by_cases hgid : gid ∈ g.participants
  · rw [if_pos hgid]
    exact h
  · rw [if_neg hgid]
    exact h.insertParticipant hgid enclave

theorem removeParticipant (h : g.WellFormed) (gid : Gid) :
    (g.removeParticipant gid).graph.WellFormed := by
  unfold Graph.removeParticipant
  cases hgid : g.participants[gid]? with
  | none => exact h
  | some participant =>
    have hhosted : g.hosted gid = participant.nodes := by simp [hosted, hgid]
    have hgone := (h.dropParticipant gid).2
    rw [hhosted] at hgone
    exact hgone

theorem addNode (h : g.WellFormed) (participant : Gid) (node : NodeName) :
    (g.addNode participant node).graph.WellFormed := by
  unfold Graph.addNode
  by_cases hgid : participant ∈ g.participants
  · rw [if_neg (not_not.mpr hgid)]
    cases hfind : g.nodes.find? participant node with
    | some key => exact h
    | none => exact h.insertNode hgid hfind
  · rw [if_pos hgid]
    exact h

theorem find_eq_ok (h : g.WellFormed) {participant : Gid} {node : NodeName} {key : NodeKey}
    (hfind : g.find participant node = .ok key) :
    g.nodes.address? key = some ⟨participant, node⟩ := by
  unfold find at hfind
  split at hfind
  · cases hfind
  · split at hfind
    · rename_i found hfound
      cases hfind
      exact h.find?_eq_some_iff.mp hfound
    · cases hfind

theorem removeNode (h : g.WellFormed) (participant : Gid) (node : NodeName) :
    (g.removeNode participant node).graph.WellFormed := by
  unfold Graph.removeNode
  cases hfind : g.find participant node with
  | error error => exact h
  | ok key =>
    refine h.removeNodeAt fun address haddress => ?_
    rw [h.find_eq_ok hfind] at haddress
    cases haddress
    rfl

/-! ## Associations -/

theorem associate (h : g.WellFormed) (id : EndpointId) (participant : Gid) (node : NodeName) :
    (g.associate id participant node).graph.WellFormed := by
  unfold Graph.associate
  cases g.find participant node with
  | error error => exact h
  | ok key =>
    dsimp only
    split
    · exact h
    · split
      · exact h
      · rename_i done hdone
        exact h.attach? hdone

theorem dissociate (h : g.WellFormed) (id : EndpointId) (participant : Gid) (node : NodeName) :
    (g.dissociate id participant node).graph.WellFormed := by
  unfold Graph.dissociate
  cases g.find participant node with
  | error error => exact h
  | ok key =>
    dsimp only
    split
    · exact h
    · split
      · exact h
      · rename_i done hdone
        exact h.detach? hdone

theorem reconcile (h : g.WellFormed) (snapshot : Snapshot) :
    (g.reconcile snapshot).graph.WellFormed := by
  unfold Graph.reconcile
  cases hrepeated : snapshot.repeatedNode? with
  | some node => exact h
  | none =>
    have hnodup := Snapshot.repeatedNode?_eq_none_iff.mp hrepeated
    exact (Merge.converged_run h hnodup).wellFormed

/-! ## Runs -/

/-- Who is told about changes does not matter. -/
theorem withWatched (h : g.WellFormed) (watched : Bool) : ({ g with watched } : Graph).WellFormed :=
  h.of_sameNodes ⟨rfl, rfl, rfl, fun _ => rfl⟩ h.lists_iff fun id key hid =>
    ⟨h.awaiting_live id key hid, h.mayWait hid⟩

theorem perform (h : g.WellFormed) (command : Command) : (g.perform command).graph.WellFormed := by
  cases command with
  | addEndpoint id topic type => exact h.addEndpoint id topic type
  | removeEndpoint id => exact h.removeEndpoint id
  | addParticipant gid enclave => exact h.addParticipant gid enclave
  | removeParticipant gid => exact h.removeParticipant gid
  | addNode participant node => exact h.addNode participant node
  | removeNode participant node => exact h.removeNode participant node
  | associate id participant node => exact h.associate id participant node
  | dissociate id participant node => exact h.dissociate id participant node
  | reconcile snapshot => exact h.reconcile snapshot
  | watch => exact h.withWatched true
  | unwatch => exact h.withWatched false

theorem run (h : g.WellFormed) (commands : List Command) : (g.run commands).WellFormed := by
  induction commands generalizing g with
  | nil => exact h
  | cons command commands ih => exact ih (h.perform command)

end WellFormed

theorem Reachable.wellFormed (h : g.Reachable) : g.WellFormed := by
  obtain ⟨policy, prefs, commands, rfl⟩ := h
  exact (wellFormed_emptyWith policy prefs).run commands

/-! ## The tables of a graph -/

/-- The tables that a graph consists of agree with each other. -/
structure TablesAgree (g : Graph) : Prop where
  /-- An endpoint links to a slot exactly if there is a node which lists it. -/
  link_iff : ∀ (id : EndpointId) (key : NodeKey),
    (∃ endpoint, g.endpoint? id = some endpoint ∧ endpoint.link = some key) ↔
      ∃ node, g.nodes.get? key = some node ∧ id.gid ∈ node.listed id.kind
  /-- What a node lists is known. -/
  listed_known : ∀ (id : EndpointId) (key : NodeKey) (node : NodeRecord),
    g.nodes.get? key = some node → id.gid ∈ node.listed id.kind → id ∈ g.endpoints
  /-- No two nodes list the same endpoint. -/
  listed_once : ∀ (id : EndpointId) (key other : NodeKey) (node node' : NodeRecord),
    g.nodes.get? key = some node → id.gid ∈ node.listed id.kind →
    g.nodes.get? other = some node' → id.gid ∈ node'.listed id.kind → key = other
  /-- What waits does so at a node that is there, for an endpoint that is not known. -/
  pending_sound : ∀ (id : EndpointId) (key : NodeKey), g.pending[id]? = some key →
    (∃ node, g.nodes.get? key = some node) ∧ id ∉ g.endpoints
  /-- Nothing waits when the preferences do not allow it. -/
  pending_off : g.prefs.reconcile.deferUnknownEndpoints = false → g.pending = ∅
  /-- The participant of a node is known, and hosts the node exactly once. -/
  hosted_once : ∀ key node, g.nodes.get? key = some node →
    ∃ participant, g.participants[node.participant]? = some participant ∧
      participant.nodes.count key = 1
  /-- A participant hosts only nodes that are its own. -/
  hosted_own : ∀ (gid : Gid) (participant : Participant) (key : NodeKey),
    g.participants[gid]? = some participant → key ∈ participant.nodes →
      ∃ node, g.nodes.get? key = some node ∧ node.participant = gid
  /-- No two nodes of a participant have the same name. -/
  name_once : ∀ key other node node', g.nodes.get? key = some node →
    g.nodes.get? other = some node' → node.participant = node'.participant →
    node.name = node'.name → key = other
  /-- The index lists the slots of the nodes of each name, and no others. -/
  index_iff : ∀ name key,
    key ∈ g.nodes.keysOf name ↔ ∃ node, g.nodes.get? key = some node ∧ node.name = name
  /-- The index lists no slot twice under a name. -/
  index_nodup : ∀ name, (g.nodes.keysOf name).Nodup
  /-- The index has no entry for a name that no node has. -/
  index_ne_nil : ∀ (name : NodeName), g.nodes.byName[name]? ≠ some []
  /-- A new node would be put into a slot that is vacant. -/
  insert_vacant : ∀ gid name, g.nodes.get? (g.insertNode gid name).1 = none

theorem WellFormed.tablesAgree (h : g.WellFormed) : g.TablesAgree := by
  have hlists : ∀ id key, (∃ node, g.nodes.get? key = some node ∧ id.gid ∈ node.listed id.kind) ↔
      g.link? id = some key := by
    intro id key
    rw [← h.lists_iff]
    simp only [NodeRecord.mem_listed]
    rfl
  have haddress : ∀ {key node}, g.nodes.get? key = some node →
      g.nodes.address? key = some node.address :=
    fun hnode => NodeArena.address?_eq_some_iff.mpr ⟨_, hnode, rfl⟩
  exact {
    link_iff := by
      intro id key
      rw [hlists]
      simp [link?, endpoint?, Option.bind_eq_some_iff]
    listed_known := fun id key node hnode hid =>
      mem_endpoints_of_link? ((hlists id key).mp ⟨node, hnode, hid⟩)
    listed_once := by
      intro id key other node node' hnode hid hnode' hid'
      have hlink := (hlists id key).mp ⟨node, hnode, hid⟩
      rw [(hlists id other).mp ⟨node', hnode', hid'⟩] at hlink
      exact (Option.some.inj hlink).symm
    pending_sound := by
      intro id key hid
      obtain ⟨address, hkey⟩ := h.awaiting_live id key hid
      obtain ⟨node, hnode, -⟩ := NodeArena.address?_eq_some_iff.mp hkey
      exact ⟨⟨node, hnode⟩, h.awaiting_unknown id key hid⟩
    pending_off := by
      intro hoff
      apply Std.ExtTreeMap.ext_getElem?
      intro id
      cases hid : g.pending[id]? with
      | none => simp
      | some key => simp [h.awaiting_allowed id key hid] at hoff
    hosted_once := by
      intro key node hnode
      have hkey : key ∈ g.hosted node.participant :=
        (h.mem_hosted_iff _ _).mpr ⟨node.name, haddress hnode⟩
      have hcount := List.count_eq_one_of_mem (h.nodup_hosted _) hkey
      unfold hosted at hkey hcount
      cases hparticipant : g.participants[node.participant]? with
      | none => simp [hparticipant] at hkey
      | some participant => exact ⟨participant, rfl, by simpa [hparticipant] using hcount⟩
    hosted_own := by
      intro gid participant key hparticipant hkey
      have hhosted : key ∈ g.hosted gid := by simpa [hosted, hparticipant] using hkey
      obtain ⟨name, haddress⟩ := (h.mem_hosted_iff gid key).mp hhosted
      obtain ⟨node, hnode, heq⟩ := NodeArena.address?_eq_some_iff.mp haddress
      exact ⟨node, hnode, congrArg NodeAddress.participant heq⟩
    name_once := by
      intro key other node node' hnode hnode' hparticipant hname
      refine h.address?_inj key other node.address (haddress hnode) ?_
      rw [haddress hnode']
      simp [NodeRecord.address, hparticipant, hname]
    index_iff := by
      intro name key
      rw [h.arena.mem_keysOf]
      constructor
      · rintro ⟨participant, haddress⟩
        obtain ⟨node, hnode, heq⟩ := NodeArena.address?_eq_some_iff.mp haddress
        exact ⟨node, hnode, congrArg NodeAddress.name heq⟩
      · rintro ⟨node, hnode, rfl⟩
        exact ⟨node.participant, haddress hnode⟩
    index_nodup := h.arena.nodup_keysOf
    index_ne_nil := h.arena.entry_ne_nil
    insert_vacant := fun gid name =>
      NodeArena.address?_eq_none_iff.mp h.vacant_insertNode }

/-- Whatever is asked of a graph, in whatever order, its tables agree afterwards. -/
theorem tablesAgree_run (policy : SlotPolicy) (prefs : Prefs) (commands : List Command) :
    ((emptyWith policy prefs).run commands).TablesAgree :=
  ((wellFormed_emptyWith policy prefs).run commands).tablesAgree

end DiscoveryGraph.Graph
