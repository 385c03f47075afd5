import DiscoveryGraph.Proofs.Agreement
import DiscoveryGraph.Proofs.Announcement

/-!
# What requests do to endpoints and waiting associations

Request by request, which endpoints are known afterwards and where associations wait. Only
announcing and forgetting endpoints changes which ones are known (`Announced`, `Forgotten`); all
other requests keep them (`Keeps`). A request that is refused changes nothing.

* `allOrNothing_perform`: a command that is refused leaves the graph as it is.
* `awaiting?_removeParticipant`, `awaiting?_removeNode`: what ceases to wait when nodes go away.
-/

namespace DiscoveryGraph

/-! ## Refused commands -/

/-- Unless the request is carried out, the graph stays as it is. -/
def Outcome.AllOrNothing {α : Type} (g : Graph) (outcome : Outcome α) : Prop :=
  ∀ error, outcome.result = .error error → outcome.graph = g

theorem Outcome.AllOrNothing.map {α β : Type} {g : Graph} {outcome : Outcome α}
    (h : outcome.AllOrNothing g) (f : α → β) : (outcome.map f).AllOrNothing g := by
  intro error herror
  apply h error
  cases hresult : outcome.result with
  | error cause =>
    simp only [Outcome.map, hresult, Except.map, Except.error.injEq] at herror
    rw [herror]
  | ok value => simp [Outcome.map, hresult, Except.map] at herror

namespace Graph

variable {g g' : Graph} {id next : EndpointId} {gid : Gid} {node : NodeName} {snapshot : Snapshot}
  {snapshot : Snapshot}

theorem allOrNothing_refuse {α : Type} {request : Request} {error : GraphError}
    {node : Option NodeName} : (g.refuse request error node : Outcome α).AllOrNothing g :=
  fun _ _ => rfl

theorem allOrNothing_keep {α : Type} {value : α} : (g.keep value).AllOrNothing g :=
  fun _ _ => rfl

theorem allOrNothing_commit {α : Type} {value : α} {events : List Event} :
    (g'.commit value events).AllOrNothing g := by
  intro error herror
  cases herror

theorem result_answerWithSnapshot (hgid : gid ∈ g.participants) (events : List Event) :
    ∃ state, (g.answerWithSnapshot gid events).result = .ok state := by
  obtain ⟨state, hstate⟩ := Option.isSome_iff_exists.mp (isSome_snapshot?_iff.mpr hgid)
  exact ⟨state, by rw [answerWithSnapshot, hstate]⟩

theorem allOrNothing_answerWithSnapshot {events : List Event} (hgid : gid ∈ g'.participants) :
    (g'.answerWithSnapshot gid events).AllOrNothing g := by
  intro error herror
  obtain ⟨state, hstate⟩ := result_answerWithSnapshot hgid events
  rw [hstate] at herror
  cases herror

theorem mem_participants_of_find {key : NodeKey} (hfind : g.find gid node = .ok key) :
    gid ∈ g.participants := by
  unfold find at hfind
  split at hfind
  · cases hfind
  · rename_i hgid
    exact not_not.mp hgid

theorem mem_participants_removeNodeAt {key : NodeKey} (hgid : gid ∈ g.participants) :
    gid ∈ (g.removeNodeAt gid key).participants := by
  rw [mem_participants_iff, enclave?_removeNodeAt, ← mem_participants_iff]
  exact hgid

theorem mem_participants_insertNode (hgid : gid ∈ g.participants) :
    gid ∈ (g.insertNode gid node).2.participants := by
  rw [mem_participants_iff, enclave?_insertNode, ← mem_participants_iff]
  exact hgid

section Requests

variable (g)

theorem allOrNothing_addEndpoint (id : EndpointId) (topic type : String) :
    (g.addEndpoint id topic type).AllOrNothing g := by
  unfold addEndpoint
  split
  · exact allOrNothing_refuse
  · dsimp only
    split
    · exact allOrNothing_commit
    · split
      · exact allOrNothing_commit
      · exact allOrNothing_commit

theorem allOrNothing_removeEndpoint (id : EndpointId) :
    (g.removeEndpoint id).AllOrNothing g := by
  unfold removeEndpoint
  split
  · exact allOrNothing_refuse
  · exact allOrNothing_commit

theorem allOrNothing_addParticipant (gid : Gid) (enclave : String) :
    (g.addParticipant gid enclave).AllOrNothing g := by
  unfold addParticipant
  split
  · exact allOrNothing_refuse
  · exact allOrNothing_commit

theorem allOrNothing_removeParticipant (gid : Gid) : (g.removeParticipant gid).AllOrNothing g := by
  unfold removeParticipant
  split
  · exact allOrNothing_refuse
  · exact allOrNothing_commit

theorem allOrNothing_addNode (gid : Gid) (node : NodeName) :
    (g.addNode gid node).AllOrNothing g := by
  unfold addNode
  split
  · exact allOrNothing_refuse
  · rename_i hgid
    split
    · exact allOrNothing_refuse
    · exact allOrNothing_answerWithSnapshot (mem_participants_insertNode (not_not.mp hgid))

theorem allOrNothing_removeNode (gid : Gid) (node : NodeName) :
    (g.removeNode gid node).AllOrNothing g := by
  unfold removeNode
  split
  · exact allOrNothing_refuse
  · rename_i key hfind
    exact allOrNothing_answerWithSnapshot
      (mem_participants_removeNodeAt (mem_participants_of_find hfind))

theorem allOrNothing_associate (id : EndpointId) (gid : Gid) (node : NodeName) :
    (g.associate id gid node).AllOrNothing g := by
  unfold associate
  split
  · exact allOrNothing_refuse
  · split
    · exact allOrNothing_refuse
    · split
      · exact allOrNothing_keep
      · exact allOrNothing_commit

theorem allOrNothing_dissociate (id : EndpointId) (gid : Gid) (node : NodeName) :
    (g.dissociate id gid node).AllOrNothing g := by
  unfold dissociate
  split
  · exact allOrNothing_refuse
  · split
    · exact allOrNothing_refuse
    · split
      · exact allOrNothing_keep
      · exact allOrNothing_commit

theorem allOrNothing_reconcile (snapshot : Snapshot) :
    (g.reconcile snapshot).AllOrNothing g := by
  unfold reconcile
  split
  · exact fun _ _ => rfl
  · intro error herror
    cases herror

/-- What a command refuses to do it does not do in part either. -/
theorem allOrNothing_perform (command : Command) : (g.perform command).AllOrNothing g := by
  cases command with
  | addEndpoint id topic type => exact (g.allOrNothing_addEndpoint id topic type).map _
  | removeEndpoint id => exact (g.allOrNothing_removeEndpoint id).map _
  | addParticipant gid enclave => exact (g.allOrNothing_addParticipant gid enclave).map _
  | removeParticipant gid => exact (g.allOrNothing_removeParticipant gid).map _
  | addNode gid node => exact (g.allOrNothing_addNode gid node).map _
  | removeNode gid node => exact (g.allOrNothing_removeNode gid node).map _
  | associate id gid node => exact (g.allOrNothing_associate id gid node).map _
  | dissociate id gid node => exact (g.allOrNothing_dissociate id gid node).map _
  | reconcile snapshot => exact (g.allOrNothing_reconcile snapshot).map _
  | watch => exact fun _ herror => by cases herror
  | unwatch => exact fun _ herror => by cases herror

end Requests

/-! ## Endpoints and waiting associations, request by request -/

/-- The endpoint is not known. All else is as it was, but for the node that listed it. -/
structure Forgotten (id : EndpointId) (g g' : Graph) : Prop extends SameNodes g g' where
  prefs : g'.prefs = g.prefs
  watched : g'.watched = g.watched
  topicAndType? : ∀ next, g'.topicAndType? next =
    if next = id then none else g.topicAndType? next
  link? : ∀ next, g'.link? next = if next = id then none else g.link? next
  pending : g'.pending = g.pending

namespace Forgotten

variable (hf : Forgotten id g g')
include hf

theorem mem_endpoints (next : EndpointId) :
    next ∈ g'.endpoints ↔ next ≠ id ∧ next ∈ g.endpoints := by
  rw [mem_endpoints_iff, mem_endpoints_iff, hf.topicAndType?]
  by_cases hnext : next = id <;> simp [hnext]

theorem awaiting? (next : EndpointId) : g'.awaiting? next = g.awaiting? next := by
  rw [Graph.awaiting?, Graph.awaiting?, hf.pending, funext hf.address?]

theorem home? (next : EndpointId) :
    g'.home? next = if next = id then none else g.home? next := by
  rw [Graph.home?, Graph.home?, hf.link?, funext hf.address?]
  split <;> rfl

end Forgotten

theorem forgotten_removeEndpoint (g : Graph) (id : EndpointId) :
    Forgotten id g (g.removeEndpoint id).graph := by
  unfold removeEndpoint
  cases hid : g.endpoints[id]? with
  | none =>
    refine ⟨.refl g, rfl, rfl, ?_, ?_, rfl⟩
    · intro next
      by_cases hnext : next = id
      · simp [refuse, topicAndType?, hnext, hid]
      · simp [refuse, hnext]
    · intro next
      by_cases hnext : next = id
      · simp [refuse, link?, hnext, hid]
      · simp [refuse, hnext]
  | some endpoint =>
    dsimp only [commit]
    refine ⟨⟨rfl, ?_, ?_, ?_⟩, rfl, rfl, ?_, ?_, rfl⟩
    · cases endpoint.link <;> rfl
    · cases endpoint.link <;> rfl
    · intro key
      cases endpoint.link with
      | none => rfl
      | some other => exact NodeArena.address?_detach
    · intro next
      simp only [topicAndType?, Std.ExtTreeMap.getElem?_erase,
        Std.LawfulEqCmp.compare_eq_iff_eq, eq_comm (a := next)]
      split <;> rfl
    · intro next
      simp only [link?, Std.ExtTreeMap.getElem?_erase,
        Std.LawfulEqCmp.compare_eq_iff_eq, eq_comm (a := next)]
      split <;> rfl

theorem keeps_addParticipant (gid : Gid) (enclave : String) :
    Keeps g (g.addParticipant gid enclave).graph := by
  unfold addParticipant
  split
  · exact .refl g
  · exact ⟨fun _ => rfl, rfl, rfl⟩

theorem awaiting?_addParticipant (gid : Gid) (enclave : String) :
    (g.addParticipant gid enclave).graph.awaiting? id = g.awaiting? id := by
  unfold addParticipant
  split <;> rfl

theorem WellFormed.mem_hosted_iff_participant (h : g.WellFormed) {key : NodeKey}
    {address : NodeAddress} (hkey : g.nodes.address? key = some address) :
    key ∈ g.hosted gid ↔ address.participant = gid := by
  rw [h.mem_hosted_iff, hkey]
  constructor
  · rintro ⟨name, heq⟩
    cases heq
    rfl
  · rintro rfl
    exact ⟨address.name, rfl⟩

theorem WellFormed.vacated_removeParticipant (h : g.WellFormed) (gid : Gid) :
    Vacated (g.hosted gid) g (g.removeParticipant gid).graph := by
  unfold Graph.removeParticipant
  cases hgid : g.participants[gid]? with
  | none =>
    have hhosted : g.hosted gid = [] := by simp [hosted, hgid]
    rw [hhosted]
    exact .refl g
  | some participant =>
    have hhosted : g.hosted gid = participant.nodes := by simp [hosted, hgid]
    have hvacated := (h.dropParticipant gid).1
    rw [hhosted] at hvacated ⊢
    exact hvacated

theorem WellFormed.awaiting?_removeParticipant (h : g.WellFormed) (gid : Gid) :
    (g.removeParticipant gid).graph.awaiting? id =
      (g.awaiting? id).filter (·.participant ≠ gid) :=
  (h.vacated_removeParticipant gid).awaiting? (fun _ _ => h.mem_hosted_iff_participant) id

theorem keeps_addNode (gid : Gid) (node : NodeName) : Keeps g (g.addNode gid node).graph := by
  unfold addNode
  split
  · exact .refl g
  · split
    · exact .refl g
    · exact keeps_insertNode g gid node

theorem WellFormed.awaiting?_addNode (h : g.WellFormed) (gid : Gid) (node : NodeName) :
    (g.addNode gid node).graph.awaiting? id = g.awaiting? id := by
  unfold Graph.addNode
  split
  · rfl
  · split
    · rfl
    · exact h.awaiting?_insertNode

theorem WellFormed.keeps_removeNode (h : g.WellFormed) (gid : Gid) (node : NodeName) :
    Keeps g (g.removeNode gid node).graph := by
  unfold Graph.removeNode
  split
  · exact .refl g
  · rename_i key hfind
    exact (vacated_removeNodeAt h.toConsistent gid key).toKeeps

theorem WellFormed.mem_participants_of_address? (h : g.WellFormed) {key : NodeKey}
    {address : NodeAddress} (hkey : g.nodes.address? key = some address) :
    address.participant ∈ g.participants := by
  have hhosted : key ∈ g.hosted address.participant :=
    (h.mem_hosted_iff_participant hkey).mpr rfl
  by_contra hgid
  simp [hosted, Std.ExtTreeMap.getElem?_eq_none hgid] at hhosted

theorem WellFormed.find_eq_ok_iff (h : g.WellFormed) {key : NodeKey} :
    g.find gid node = .ok key ↔ g.nodes.address? key = some ⟨gid, node⟩ := by
  refine ⟨h.find_eq_ok, fun haddress => ?_⟩
  have hgid : gid ∈ g.participants := h.mem_participants_of_address? haddress
  rw [find, if_neg (not_not.mpr hgid), h.find?_eq_some_iff.mpr haddress]

/-- The slot of a node is the one slot with its address. -/
theorem WellFormed.mem_singleton_iff_address (h : g.WellFormed) {key other : NodeKey}
    {address place : NodeAddress} (hkey : g.nodes.address? key = some address)
    (hother : g.nodes.address? other = some place) : other ∈ [key] ↔ place = address := by
  rw [List.mem_singleton]
  constructor
  · rintro rfl
    exact Option.some.inj (hother.symm.trans hkey)
  · rintro rfl
    exact h.address?_inj _ _ _ hother hkey

theorem WellFormed.awaiting?_removeNode (h : g.WellFormed) (gid : Gid) (node : NodeName) :
    (g.removeNode gid node).graph.awaiting? id = (g.awaiting? id).filter (· ≠ ⟨gid, node⟩) := by
  unfold Graph.removeNode
  cases hfind : g.find gid node with
  | error error =>
    -- A node that is not there is not waited at.
    have hwaits : g.awaiting? id ≠ some ⟨gid, node⟩ := by
      intro hwaits
      obtain ⟨key, -, haddress⟩ := Option.bind_eq_some_iff.mp hwaits
      rw [h.find_eq_ok_iff.mpr haddress] at hfind
      cases hfind
    change g.awaiting? id = _
    cases hplace : g.awaiting? id with
    | none => rfl
    | some address => simpa [Option.filter_some, hplace] using hwaits
  | ok key =>
    exact (vacated_removeNodeAt h.toConsistent gid key).awaiting?
      (fun _ _ => h.mem_singleton_iff_address (h.find_eq_ok hfind)) id

section Associations

variable (id) (gid : Gid) (node : NodeName)

theorem rewired_associate : Rewired g (g.associate id gid node).graph := by
  unfold associate
  split
  · exact .refl g
  · split
    · exact .refl g
    · split
      · exact .refl g
      · rename_i done hdone
        exact rewired_attach? hdone

theorem pending_associate : (g.associate id gid node).graph.pending = g.pending := by
  unfold associate
  split
  · rfl
  · split
    · rfl
    · split
      · rfl
      · rename_i done hdone
        exact pending_attach? hdone

theorem rewired_dissociate : Rewired g (g.dissociate id gid node).graph := by
  unfold dissociate
  split
  · exact .refl g
  · split
    · exact .refl g
    · split
      · exact .refl g
      · rename_i done hdone
        exact rewired_detach? hdone

theorem pending_dissociate : (g.dissociate id gid node).graph.pending = g.pending := by
  unfold dissociate
  split
  · rfl
  · split
    · rfl
    · split
      · rfl
      · rename_i done hdone
        exact pending_detach? hdone

end Associations

theorem graph_reconcile_of_repeated (hrepeated : ¬ snapshot.names.Nodup) :
    (g.reconcile snapshot).graph = g := by
  unfold reconcile
  cases hnode : snapshot.repeatedNode? with
  | some node => rfl
  | none => exact absurd (Snapshot.repeatedNode?_eq_none_iff.mp hnode) hrepeated

theorem keeps_reconcile (h : g.WellFormed) (snapshot : Snapshot) :
    Keeps g (g.reconcile snapshot).graph := by
  by_cases hnodup : snapshot.names.Nodup
  · rw [reconcile_of_nodup hnodup]
    exact (Merge.converged_run h hnodup).keeps
  · rw [graph_reconcile_of_repeated hnodup]
    exact .refl g

end Graph

end DiscoveryGraph
