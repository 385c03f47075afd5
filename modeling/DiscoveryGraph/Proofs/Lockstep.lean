import DiscoveryGraph.Proofs.Alike
import DiscoveryGraph.Proofs.Requests

/-!
# Requests to graphs that are alike

A request to each of two graphs that are alike has the same outcome in both, and the graphs that it
leads to are alike again. Nothing is said about slots: a request finds a node by its address, and
what the steps of a request do to the views depends on addresses alone.

* `Alike.remove`: nodes go away, from whichever slots.
* `alike_addEndpoint` to `alike_dissociate`: the requests, one by one.
-/

namespace DiscoveryGraph

/-- The two outcomes show the same, and lead to graphs that are alike. -/
structure Outcome.Alike {α : Type} (outcome outcome' : Outcome α) : Prop where
  result : outcome'.result = outcome.result
  notified : outcome'.notified = outcome.notified
  events : outcome'.events = outcome.events
  graph : Graph.Alike outcome.graph outcome'.graph

theorem Outcome.Alike.map {α β : Type} {outcome outcome' : Outcome α} (h : outcome.Alike outcome')
    (f : α → β) : (outcome.map f).Alike (outcome'.map f) :=
  ⟨congrArg (Except.map f) h.result, h.notified, h.events, h.graph⟩

namespace Graph

variable {g g' a a' : Graph} {id : EndpointId} {key key' : NodeKey} {gid : Gid} {name : NodeName}
  {address : NodeAddress}

/-! ## Nodes that go away -/

/-- The nodes in the slots `keys` are removed, and no participant hosts them any longer. -/
structure Removed (keys : List NodeKey) (g a : Graph) : Prop extends Vacated keys g a where
  wellFormed : a.WellFormed
  hosted : ∀ gid, a.hosted gid = (g.hosted gid).filter (· ∉ keys)
  nodes : a.nodes = keys.foldl NodeArena.erase g.nodes

theorem nodes_foldl_dropNode (g : Graph) (keys : List NodeKey) :
    (keys.foldl dropNode g).nodes = keys.foldl NodeArena.erase g.nodes := by
  induction keys generalizing g with
  | nil => rfl
  | cons key keys ih => rw [List.foldl_cons, ih, nodes_dropNode, List.foldl_cons]

theorem nodes_foldl_removeNodeAt (g : Graph) (gid : Gid) (keys : List NodeKey) :
    (keys.foldl (removeNodeAt · gid) g).nodes = keys.foldl NodeArena.erase g.nodes := by
  induction keys generalizing g with
  | nil => rfl
  | cons key keys ih => rw [List.foldl_cons, ih, removeNodeAt, nodes_dropNode, List.foldl_cons]

theorem WellFormed.removed_foldl_removeNodeAt (h : g.WellFormed) (gid : Gid) (keys : List NodeKey)
    (hkeys : ∀ key ∈ keys, ∀ address, g.nodes.address? key = some address →
      address.participant = gid) : Removed keys g (keys.foldl (Graph.removeNodeAt · gid) g) := by
  obtain ⟨hwf, hv, -, hhosted⟩ := h.foldl_removeNodeAt gid keys hkeys
  exact ⟨hv, hwf, hhosted, nodes_foldl_removeNodeAt g gid keys⟩

theorem WellFormed.removed_dropParticipant (h : g.WellFormed) (gid : Gid) :
    Removed (g.hosted gid) g
      ((g.hosted gid).foldl dropNode { g with participants := g.participants.erase gid }) := by
  obtain ⟨hv, hwf⟩ := h.dropParticipant gid
  exact ⟨hv, hwf, h.hosted_dropParticipant gid, nodes_foldl_dropNode _ _⟩

theorem WellFormed.removed_removeNodeAt (h : g.WellFormed)
    (hkey : g.nodes.address? key = some ⟨gid, name⟩) : Removed [key] g (g.removeNodeAt gid key) := by
  refine h.removed_foldl_removeNodeAt gid [key] fun other hother address haddress => ?_
  rw [List.mem_singleton.mp hother, hkey] at haddress
  cases haddress
  rfl

theorem SameNodes.hostsOf (hn : SameNodes g g') (name : NodeName) :
    g'.nodes.hostsOf name = g.nodes.hostsOf name := by
  simp only [NodeArena.hostsOf, NodeArena.hostsAt, NodeArena.keysOf, hn.byName, hn.address?]

theorem WellFormed.hostsOf_insertNode (h : g.WellFormed) (gid : Gid) (name other : NodeName) :
    (g.insertNode gid name).2.nodes.hostsOf other =
      if name = other then g.nodes.hostsOf other ++ [gid] else g.nodes.hostsOf other :=
  NodeArena.hostsOf_insert (h.arena.vacant_insert gid name)
    (fun _ _ hkey => h.arena.isSome_address?_of_mem hkey) other

/-! ## Steps -/

namespace Alike

variable (h : Alike g g')
include h

theorem mem_participants (gid : Gid) : gid ∈ g'.participants ↔ gid ∈ g.participants := by
  rw [mem_participants_iff, mem_participants_iff, h.enclave?]

theorem isSome_find? (gid : Gid) (name : NodeName) :
    (g'.nodes.find? gid name).isSome = (g.nodes.find? gid name).isSome := by
  rw [Bool.eq_iff_iff, h.wellFormed'.isSome_find?_iff, h.wellFormed.isSome_find?_iff,
    h.hostedNames]

/-- Endpoints and associations may change, if they do so in the same way. -/
theorem of_sameNodes (hn : SameNodes g a) (hn' : SameNodes g' a') (hk : Keeps a a')
    (hwf : a.WellFormed) (hwf' : a'.WellFormed) (hhome : ∀ id, a'.home? id = a.home? id)
    (hawaiting : ∀ id, a'.awaiting? id = a.awaiting? id) : Alike a a' where
  toKeeps := hk
  wellFormed := hwf
  wellFormed' := hwf'
  enclave? gid := by rw [hn'.enclave?, hn.enclave?, h.enclave?]
  hostedNames gid := by rw [hn'.hostedNames, hn.hostedNames, h.hostedNames]
  home? := hhome
  awaiting? := hawaiting
  hostsOf name := by rw [hn'.hostsOf, hn.hostsOf, h.hostsOf]

/-- Endpoints may move, if they do so in the same way. -/
theorem rewire (hr : Rewired g a) (hr' : Rewired g' a') (hwf : a.WellFormed) (hwf' : a'.WellFormed)
    (hhome : ∀ id, a'.home? id = a.home? id) (hawaiting : ∀ id, a.awaiting? id = g.awaiting? id)
    (hawaiting' : ∀ id, a'.awaiting? id = g'.awaiting? id) : Alike a a' :=
  h.of_sameNodes hr.toSameNodes hr'.toSameNodes
    (hr.toKeeps.symm.trans (h.toKeeps.trans hr'.toKeeps)) hwf hwf' hhome fun id => by
      rw [hawaiting', hawaiting, h.awaiting?]

theorem withWatched (watched : Bool) : Alike { g with watched } { g' with watched } where
  toKeeps := ⟨h.topicAndType?, h.prefs, rfl⟩
  wellFormed := h.wellFormed.withWatched watched
  wellFormed' := h.wellFormed'.withWatched watched
  enclave? := h.enclave?
  hostedNames := h.hostedNames
  home? := h.home?
  awaiting? := h.awaiting?
  hostsOf := h.hostsOf

theorem insertParticipant (hgid : gid ∉ g.participants) (enclave : String) :
    Alike { g with participants := g.participants.insert gid { enclave, nodes := [] } }
      { g' with participants := g'.participants.insert gid { enclave, nodes := [] } } := by
  have hgid' : gid ∉ g'.participants := mt (h.mem_participants gid).mp hgid
  exact {
    toKeeps := ⟨h.topicAndType?, h.prefs, h.watched⟩
    wellFormed := h.wellFormed.insertParticipant hgid enclave
    wellFormed' := h.wellFormed'.insertParticipant hgid' enclave
    enclave? := by
      intro owner
      rw [enclave?_insertParticipant, enclave?_insertParticipant, h.enclave?]
    hostedNames := by
      intro owner
      rw [Graph.hostedNames, Graph.hostedNames, hosted_insertParticipant hgid,
        hosted_insertParticipant hgid']
      exact h.hostedNames owner
    home? := h.home?
    awaiting? := h.awaiting?
    hostsOf := h.hostsOf }

theorem insertNode (hgid : gid ∈ g.participants) (hnew : g.nodes.find? gid name = none) :
    Alike (g.insertNode gid name).2 (g'.insertNode gid name).2 := by
  have hgid' : gid ∈ g'.participants := (h.mem_participants gid).mpr hgid
  have hnew' : g'.nodes.find? gid name = none := by
    simpa [hnew] using h.isSome_find? gid name
  exact {
    toKeeps := (keeps_insertNode g gid name).symm.trans
      (h.toKeeps.trans (keeps_insertNode g' gid name))
    wellFormed := h.wellFormed.insertNode hgid hnew
    wellFormed' := h.wellFormed'.insertNode hgid' hnew'
    enclave? := by
      intro owner
      rw [enclave?_insertNode, enclave?_insertNode, h.enclave?]
    hostedNames := by
      intro owner
      rw [h.wellFormed'.hostedNames_insertNode hgid', h.wellFormed.hostedNames_insertNode hgid,
        h.hostedNames]
    home? := by
      intro id
      rw [h.wellFormed'.home?_insertNode, h.wellFormed.home?_insertNode, h.home?]
    awaiting? := by
      intro id
      rw [h.wellFormed'.awaiting?_insertNode, h.wellFormed.awaiting?_insertNode, h.awaiting?]
    hostsOf := by
      intro other
      rw [h.wellFormed'.hostsOf_insertNode, h.wellFormed.hostsOf_insertNode, h.hostsOf] }

/-- Nodes with the same addresses go away. -/
theorem remove {keys keys' : List NodeKey} {gone : NodeAddress → Prop} [DecidablePred gone]
    (hr : Removed keys g a) (hr' : Removed keys' g' a')
    (hgone : ∀ key address, g.nodes.address? key = some address → (key ∈ keys ↔ gone address))
    (hgone' : ∀ key address, g'.nodes.address? key = some address → (key ∈ keys' ↔ gone address))
    (henclave : ∀ gid, a'.enclave? gid = a.enclave? gid) : Alike a a' where
  toKeeps := hr.toKeeps.symm.trans (h.toKeeps.trans hr'.toKeeps)
  wellFormed := hr.wellFormed
  wellFormed' := hr'.wellFormed
  enclave? := henclave
  hostedNames owner := by
    rw [h.wellFormed'.hostedNames_vacate hr'.toVacated hgone' hr'.hosted,
      h.wellFormed.hostedNames_vacate hr.toVacated hgone hr.hosted, h.hostedNames]
  home? id := by rw [hr'.toVacated.home? hgone', hr.toVacated.home? hgone, h.home?]
  awaiting? id := by
    rw [hr'.toVacated.awaiting? hgone', hr.toVacated.awaiting? hgone, h.awaiting?]
  hostsOf name := by
    rw [hr'.nodes, hr.nodes, h.wellFormed'.arena.hostsOf_foldl_erase hgone',
      h.wellFormed.arena.hostsOf_foldl_erase hgone, h.hostsOf]

/-- A node is found in both graphs, in slots of the same address, or is missing from both for the
same reason. -/
theorem find_cases (gid : Gid) (name : NodeName) :
    (∃ error, g.find gid name = .error error ∧ g'.find gid name = .error error) ∨
      ∃ key key', g.find gid name = .ok key ∧ g'.find gid name = .ok key' ∧
        g.nodes.address? key = some ⟨gid, name⟩ ∧ g'.nodes.address? key' = some ⟨gid, name⟩ := by
  by_cases hgid : gid ∈ g.participants
  · have hgid' := (h.mem_participants gid).mpr hgid
    have hsome := h.isSome_find? gid name
    unfold find
    rw [if_neg (not_not.mpr hgid), if_neg (not_not.mpr hgid')]
    cases hfind : g.nodes.find? gid name with
    | none =>
      have hfind' : g'.nodes.find? gid name = none := by simpa [hfind] using hsome
      exact Or.inl ⟨_, rfl, by rw [hfind']⟩
    | some key =>
      rw [hfind] at hsome
      obtain ⟨key', hfind'⟩ := Option.isSome_iff_exists.mp hsome
      exact Or.inr ⟨key, key', rfl, by rw [hfind'], h.wellFormed.find?_eq_some_iff.mp hfind,
        h.wellFormed'.find?_eq_some_iff.mp hfind'⟩
  · have hgid' := mt (h.mem_participants gid).mp hgid
    exact Or.inl ⟨_, by rw [find, if_pos hgid], by rw [find, if_pos hgid']⟩

end Alike

/-! ## Attaching and detaching -/

theorem home?_attach? (hkey : g.nodes.address? key = some address)
    (hattach : g.attach? id key = some a) (next : EndpointId) :
    a.home? next = if next = id then some address else g.home? next := by
  rw [home?, link?_attach? hattach, funext (rewired_attach? hattach).address?]
  split
  · exact hkey
  · rfl

theorem home?_detach? (hdetach : g.detach? id key = some a) (next : EndpointId) :
    a.home? next = if next = id then none else g.home? next := by
  rw [home?, link?_detach? hdetach, funext (rewired_detach? hdetach).address?]
  split <;> rfl

theorem Rewired.awaiting? (hr : Rewired g a) (hpending : a.pending = g.pending) (id : EndpointId) :
    a.awaiting? id = g.awaiting? id := by
  rw [Graph.awaiting?, Graph.awaiting?, hpending, funext hr.address?]

section Associations

variable (h : Alike g g') (hkey : g.nodes.address? key = some address)
  (hkey' : g'.nodes.address? key' = some address)
include h hkey hkey'

theorem Alike.attach?_cases (id : EndpointId) :
    (g.attach? id key = none ∧ g'.attach? id key' = none) ∨
      ∃ a a', g.attach? id key = some a ∧ g'.attach? id key' = some a' ∧ Alike a a' := by
  have hnone : g'.attach? id key' = none ↔ g.attach? id key = none := by
    rw [attach?_eq_none_iff hkey', attach?_eq_none_iff hkey, h.mem_endpoints,
      ← h.wellFormed'.home?_eq_some_iff hkey', ← h.wellFormed.home?_eq_some_iff hkey, h.home?]
  cases hattach : g.attach? id key with
  | none => exact Or.inl ⟨rfl, hnone.mpr hattach⟩
  | some a =>
    cases hattach' : g'.attach? id key' with
    | none => rw [hnone.mp hattach'] at hattach; cases hattach
    | some a' =>
      have hr := rewired_attach? hattach
      have hr' := rewired_attach? hattach'
      refine Or.inr ⟨a, a', rfl, rfl, h.rewire hr hr' (h.wellFormed.attach? hattach)
        (h.wellFormed'.attach? hattach') (fun next => ?_) (hr.awaiting? (pending_attach? hattach))
        (hr'.awaiting? (pending_attach? hattach'))⟩
      rw [home?_attach? hkey' hattach', home?_attach? hkey hattach, h.home?]

theorem Alike.detach?_cases (id : EndpointId) :
    (g.detach? id key = none ∧ g'.detach? id key' = none) ∨
      ∃ a a', g.detach? id key = some a ∧ g'.detach? id key' = some a' ∧ Alike a a' := by
  have hnone : g'.detach? id key' = none ↔ g.detach? id key = none := by
    rw [detach?_eq_none_iff, detach?_eq_none_iff, ne_eq, ne_eq,
      ← h.wellFormed'.home?_eq_some_iff hkey', ← h.wellFormed.home?_eq_some_iff hkey, h.home?]
  cases hdetach : g.detach? id key with
  | none => exact Or.inl ⟨rfl, hnone.mpr hdetach⟩
  | some a =>
    cases hdetach' : g'.detach? id key' with
    | none => rw [hnone.mp hdetach'] at hdetach; cases hdetach
    | some a' =>
      have hr := rewired_detach? hdetach
      have hr' := rewired_detach? hdetach'
      refine Or.inr ⟨a, a', rfl, rfl, h.rewire hr hr' (h.wellFormed.detach? hdetach)
        (h.wellFormed'.detach? hdetach') (fun next => ?_) (hr.awaiting? (pending_detach? hdetach))
        (hr'.awaiting? (pending_detach? hdetach'))⟩
      rw [home?_detach? hdetach', home?_detach? hdetach, h.home?]

end Associations

/-! ## Outcomes -/

section Outcomes

variable {α : Type}

theorem alike_refuse (h : Alike g g') (request : Request) (error : GraphError)
    (node : Option NodeName) :
    Outcome.Alike (g.refuse request error node : Outcome α) (g'.refuse request error node) :=
  ⟨rfl, rfl, rfl, h⟩

theorem alike_keep (h : Alike g g') (value : α) : (g.keep value).Alike (g'.keep value) :=
  ⟨rfl, rfl, rfl, h⟩

theorem alike_commit (h : Alike g g') (value : α) (events : List Event) :
    (g.commit value events).Alike (g'.commit value events) :=
  ⟨rfl, h.watched, rfl, h⟩

theorem alike_answerWithSnapshot (h : Alike g g') (gid : Gid) (events : List Event) :
    (g.answerWithSnapshot gid events).Alike (g'.answerWithSnapshot gid events) :=
  ⟨by simp only [answerWithSnapshot, h.snapshot?], h.watched, rfl, h⟩

end Outcomes

/-! ## Requests -/

/-- An announcement that is not refused is reported, and so is the association that it completes. -/
theorem WellFormed.addEndpoint_eq (h : g.WellFormed) (hid : id ∉ g.endpoints)
    (topic type : String) : g.addEndpoint id topic type =
      (g.addEndpoint id topic type).graph.commit () (.endpointAdded id topic type ::
        if (g.awaiting? id).isSome then [.deferredApplied id] else []) := by
  unfold Graph.addEndpoint
  rw [if_neg hid]
  cases hwaiting : g.pending[id]? with
  | none => simp [awaiting?, hwaiting, commit]
  | some key =>
    obtain ⟨address, haddress⟩ := h.awaiting_live id key hwaiting
    let known : Graph := { g with
      endpoints := g.endpoints.insert id (.announced topic type)
      pending := g.pending.erase id }
    have hkey : known.nodes.address? key = some address := haddress
    have hattach : known.attach? id key ≠ none := by
      rw [ne_eq, attach?_eq_none_iff hkey, link?_announce]
      simp [known]
    obtain ⟨done, hdone⟩ := Option.ne_none_iff_exists'.mp hattach
    simp only [known] at hdone
    simp [hdone, awaiting?, hwaiting, haddress, commit]

theorem removeEndpoint_eq {topic type : String} (hid : g.topicAndType? id = some (topic, type)) :
    g.removeEndpoint id =
      (g.removeEndpoint id).graph.commit () [.endpointRemoved id topic] := by
  unfold removeEndpoint
  obtain ⟨endpoint, hendpoint, heq⟩ := Option.map_eq_some_iff.mp hid
  cases heq
  rw [hendpoint]
  rfl

theorem removeParticipant_eq (hgid : gid ∈ g.participants) : g.removeParticipant gid =
    ((g.hosted gid).foldl dropNode { g with participants := g.participants.erase gid }).commit ()
      ((g.hostedNames gid).map (.nodeRemovedWithParticipant gid ·) ++
        [.participantRemoved gid]) := by
  obtain ⟨participant, hparticipant⟩ :=
    Option.isSome_iff_exists.mp (Std.ExtTreeMap.mem_iff_isSome_getElem?.mp hgid)
  have hhosted : g.hosted gid = participant.nodes := by simp [hosted, hparticipant]
  have hgone : (participant.nodes.filterMap g.nodes.get?).map
        (fun node => Event.nodeRemovedWithParticipant gid node.name) =
      (g.hostedNames gid).map (.nodeRemovedWithParticipant gid ·) := by
    rw [hostedNames, hhosted, List.map_filterMap, List.map_filterMap]
    refine List.filterMap_congr fun key _ => ?_
    rw [NodeArena.address?, Option.map_map, Option.map_map]
    rfl
  rw [removeParticipant, hparticipant, hhosted, ← hgone]

section Requests

variable (h : Alike g g')
include h

theorem alike_addEndpoint (id : EndpointId) (topic type : String) :
    (g.addEndpoint id topic type).Alike (g'.addEndpoint id topic type) := by
  by_cases hid : id ∈ g.endpoints
  · have hid' := (h.mem_endpoints id).mpr hid
    rw [addEndpoint, addEndpoint, if_pos hid, if_pos hid']
    exact alike_refuse h _ _ _
  · have hid' := mt (h.mem_endpoints id).mp hid
    have ha := announced_addEndpoint h.wellFormed hid topic type
    have ha' := announced_addEndpoint h.wellFormed' hid' topic type
    rw [h.wellFormed'.addEndpoint_eq hid', h.wellFormed.addEndpoint_eq hid, h.awaiting?]
    refine alike_commit (h.of_sameNodes ha.toSameNodes ha'.toSameNodes ⟨?_, ?_, ?_⟩ ha.wellFormed
      ha'.wellFormed ?_ ?_) _ _
    · intro next
      rw [ha'.topicAndType?, ha.topicAndType?, h.topicAndType?]
    · rw [ha'.prefs, ha.prefs, h.prefs]
    · rw [ha'.watched, ha.watched, h.watched]
    · intro next
      rw [ha'.home?, ha.home?, h.home?, h.awaiting?]
    · intro next
      rw [ha'.awaiting?, ha.awaiting?, h.awaiting?]

theorem alike_removeEndpoint (id : EndpointId) :
    (g.removeEndpoint id).Alike (g'.removeEndpoint id) := by
  cases hid : g.topicAndType? id with
  | none =>
    have hid' := (h.topicAndType? id).trans hid
    rw [removeEndpoint, removeEndpoint, Option.map_eq_none_iff.mp hid,
      Option.map_eq_none_iff.mp hid']
    exact alike_refuse h _ _ _
  | some names =>
    have hf := forgotten_removeEndpoint g id
    have hf' := forgotten_removeEndpoint g' id
    rw [removeEndpoint_eq ((h.topicAndType? id).trans hid), removeEndpoint_eq hid]
    refine alike_commit (h.of_sameNodes hf.toSameNodes hf'.toSameNodes ⟨?_, ?_, ?_⟩
      (h.wellFormed.removeEndpoint id) (h.wellFormed'.removeEndpoint id) ?_ ?_) _ _
    · intro next
      rw [hf'.topicAndType?, hf.topicAndType?, h.topicAndType?]
    · rw [hf'.prefs, hf.prefs, h.prefs]
    · rw [hf'.watched, hf.watched, h.watched]
    · intro next
      rw [hf'.home?, hf.home?, h.home?]
    · intro next
      rw [hf'.awaiting?, hf.awaiting?, h.awaiting?]

theorem alike_addParticipant (gid : Gid) (enclave : String) :
    (g.addParticipant gid enclave).Alike (g'.addParticipant gid enclave) := by
  by_cases hgid : gid ∈ g.participants
  · rw [addParticipant, addParticipant, if_pos hgid, if_pos ((h.mem_participants gid).mpr hgid)]
    exact alike_refuse h _ _ _
  · rw [addParticipant, addParticipant, if_neg hgid, if_neg (mt (h.mem_participants gid).mp hgid)]
    exact alike_commit (h.insertParticipant hgid enclave) _ _

theorem alike_removeParticipant (gid : Gid) :
    (g.removeParticipant gid).Alike (g'.removeParticipant gid) := by
  by_cases hgid : gid ∈ g.participants
  · rw [removeParticipant_eq ((h.mem_participants gid).mpr hgid), removeParticipant_eq hgid,
      h.hostedNames]
    refine alike_commit (h.remove (h.wellFormed.removed_dropParticipant gid)
      (h.wellFormed'.removed_dropParticipant gid)
      (fun _ _ => h.wellFormed.mem_hosted_iff_participant)
      (fun _ _ => h.wellFormed'.mem_hosted_iff_participant) fun owner => ?_) _ _
    rw [h.wellFormed'.enclave?_dropParticipant, h.wellFormed.enclave?_dropParticipant, h.enclave?]
  · have hgid' := mt (h.mem_participants gid).mp hgid
    rw [removeParticipant, removeParticipant, Std.ExtTreeMap.getElem?_eq_none hgid,
      Std.ExtTreeMap.getElem?_eq_none hgid']
    exact alike_refuse h _ _ _

theorem alike_addNode (gid : Gid) (node : NodeName) :
    (g.addNode gid node).Alike (g'.addNode gid node) := by
  unfold addNode
  rw [h.isSome_find?]
  by_cases hgid : gid ∈ g.participants
  · rw [if_neg (not_not.mpr hgid), if_neg (not_not.mpr ((h.mem_participants gid).mpr hgid))]
    cases hfind : g.nodes.find? gid node with
    | some key => exact alike_refuse h _ _ _
    | none => exact alike_answerWithSnapshot (h.insertNode hgid hfind) gid _
  · rw [if_pos hgid, if_pos (mt (h.mem_participants gid).mp hgid)]
    exact alike_refuse h _ _ _

theorem alike_removeNode (gid : Gid) (node : NodeName) :
    (g.removeNode gid node).Alike (g'.removeNode gid node) := by
  unfold removeNode
  obtain ⟨error, hfind, hfind'⟩ | ⟨key, key', hfind, hfind', hkey, hkey'⟩ := h.find_cases gid node
  · rw [hfind, hfind']
    exact alike_refuse h _ _ _
  · rw [hfind, hfind']
    refine alike_answerWithSnapshot (h.remove (h.wellFormed.removed_removeNodeAt hkey)
      (h.wellFormed'.removed_removeNodeAt hkey')
      (fun _ _ => h.wellFormed.mem_singleton_iff_address hkey)
      (fun _ _ => h.wellFormed'.mem_singleton_iff_address hkey') fun owner => ?_) gid _
    rw [enclave?_removeNodeAt, enclave?_removeNodeAt, h.enclave?]

theorem alike_associate (id : EndpointId) (gid : Gid) (node : NodeName) :
    (g.associate id gid node).Alike (g'.associate id gid node) := by
  unfold associate
  obtain ⟨error, hfind, hfind'⟩ | ⟨key, key', hfind, hfind', hkey, hkey'⟩ := h.find_cases gid node
  · rw [hfind, hfind']
    exact alike_refuse h _ _ _
  · simp only [hfind, hfind', h.mem_endpoints]
    split
    · exact alike_refuse h _ _ _
    · obtain ⟨hnone, hnone'⟩ | ⟨a, a', hsome, hsome', ha⟩ := h.attach?_cases hkey hkey' id
      · rw [hnone, hnone']
        exact alike_keep h ()
      · rw [hsome, hsome']
        exact alike_commit ha () _

theorem alike_dissociate (id : EndpointId) (gid : Gid) (node : NodeName) :
    (g.dissociate id gid node).Alike (g'.dissociate id gid node) := by
  unfold dissociate
  obtain ⟨error, hfind, hfind'⟩ | ⟨key, key', hfind, hfind', hkey, hkey'⟩ := h.find_cases gid node
  · rw [hfind, hfind']
    exact alike_refuse h _ _ _
  · simp only [hfind, hfind', h.mem_endpoints]
    split
    · exact alike_refuse h _ _ _
    · obtain ⟨hnone, hnone'⟩ | ⟨a, a', hsome, hsome', ha⟩ := h.detach?_cases hkey hkey' id
      · rw [hnone, hnone']
        exact alike_keep h ()
      · rw [hsome, hsome']
        exact alike_commit ha () _

end Requests

end Graph

end DiscoveryGraph
