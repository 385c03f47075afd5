import DiscoveryGraph.Graph
import DiscoveryGraph.Proofs.Arena

/-!
# Views of a graph

What a graph says about one endpoint, one slot or one participant. An endpoint has a topic and a
type (`topicAndType?`), belongs to the node in some slot (`link?`), and thereby to the node with
some address (`home?`); one that is not announced may be awaited by a node (`awaiting?`). A
participant hosts the nodes in some slots (`hosted`), which have names (`hostedNames`).

`Keeps` and `SameNodes` relate graphs that have the same endpoints, or the same nodes; `Rewired`
relates two graphs that differ in associations at most. The steps that keep both sides
of an association in line are described by what they do to the views.
-/

namespace DiscoveryGraph.Graph

/-! ## Views -/

/-- The slot of the node that an endpoint belongs to. -/
def link? (g : Graph) (id : EndpointId) : Option NodeKey :=
  g.endpoints[id]?.bind (·.link)

/-- The topic and the type of an endpoint. -/
def topicAndType? (g : Graph) (id : EndpointId) : Option (String × String) :=
  g.endpoints[id]?.map fun endpoint => (endpoint.topic, endpoint.type)

/-- The slots of the nodes of a participant, in the order of their creation. -/
def hosted (g : Graph) (gid : Gid) : List NodeKey :=
  (g.participants[gid]?.map (·.nodes)).getD []

/-- The enclave of a participant that is known. -/
def enclave? (g : Graph) (gid : Gid) : Option String :=
  g.participants[gid]?.map (·.enclave)

/-- The names of the nodes of a participant, in the order of their creation. -/
def hostedNames (g : Graph) (gid : Gid) : List NodeName :=
  (g.hosted gid).filterMap fun key => (g.nodes.address? key).map (·.name)

/-- The address of the node that an endpoint belongs to. -/
def home? (g : Graph) (id : EndpointId) : Option NodeAddress :=
  (g.link? id).bind g.nodes.address?

/-- The address of the node that waits for an endpoint. -/
def awaiting? (g : Graph) (id : EndpointId) : Option NodeAddress :=
  g.pending[id]?.bind g.nodes.address?

/-- An association with the endpoint has to wait, and may do so. -/
def MayWait (g : Graph) (id : EndpointId) : Prop :=
  id ∉ g.endpoints ∧ g.prefs.reconcile.deferUnknownEndpoints = true

instance (g : Graph) (id : EndpointId) : Decidable (g.MayWait id) :=
  inferInstanceAs (Decidable (_ ∧ _))

variable {g g' g'' : Graph} {id next : EndpointId} {key other : NodeKey}

theorem mem_endpoints_iff : id ∈ g.endpoints ↔ (g.topicAndType? id).isSome := by
  simp [topicAndType?]

theorem mem_endpoints_of_link? (h : g.link? id = some key) : id ∈ g.endpoints := by
  unfold link? at h
  cases hid : g.endpoints[id]? with
  | none => simp [hid] at h
  | some endpoint => exact Std.ExtTreeMap.mem_iff_isSome_getElem?.mpr (by simp [hid])

theorem mem_endpoints_of_home? {address : NodeAddress} (h : g.home? id = some address) :
    id ∈ g.endpoints := by
  obtain ⟨key, hlink, -⟩ := Option.bind_eq_some_iff.mp h
  exact mem_endpoints_of_link? hlink

/-- An endpoint is no more than its topic, its type and its link. -/
theorem getElem?_endpoints (g : Graph) (id : EndpointId) : g.endpoints[id]? =
    (g.topicAndType? id).map fun names => ⟨names.1, names.2, g.link? id⟩ := by
  unfold topicAndType? link?
  cases g.endpoints[id]? <;> rfl

theorem endpoint?_congr (hfacts : g'.topicAndType? id = g.topicAndType? id)
    (hlink : g'.link? id = g.link? id) : g'.endpoint? id = g.endpoint? id := by
  rw [endpoint?, endpoint?, getElem?_endpoints, getElem?_endpoints, hfacts, hlink]

theorem endpoints_ext (hfacts : ∀ id, g'.topicAndType? id = g.topicAndType? id)
    (hlink : ∀ id, g'.link? id = g.link? id) : g'.endpoints = g.endpoints :=
  Std.ExtTreeMap.ext_getElem? fun id => endpoint?_congr (hfacts id) (hlink id)

theorem mem_participants_iff {gid : Gid} : gid ∈ g.participants ↔ (g.enclave? gid).isSome := by
  simp [enclave?]

/-- A participant is no more than its enclave and the slots of its nodes. -/
theorem getElem?_participants (g : Graph) (gid : Gid) :
    g.participants[gid]? = (g.enclave? gid).map fun enclave => ⟨enclave, g.hosted gid⟩ := by
  unfold enclave? hosted
  cases g.participants[gid]? <;> rfl

/-! ## Graphs that have the same endpoints -/

/-- The two graphs have the same endpoints, the same preferences and the same watcher. -/
structure Keeps (g g' : Graph) : Prop where
  topicAndType? : ∀ id, g'.topicAndType? id = g.topicAndType? id
  prefs : g'.prefs = g.prefs
  watched : g'.watched = g.watched

namespace Keeps

theorem refl (g : Graph) : Keeps g g :=
  ⟨fun _ => rfl, rfl, rfl⟩

theorem trans (h : Keeps g g') (h' : Keeps g' g'') : Keeps g g'' where
  topicAndType? id := (h'.topicAndType? id).trans (h.topicAndType? id)
  prefs := h'.prefs.trans h.prefs
  watched := h'.watched.trans h.watched

theorem symm (h : Keeps g g') : Keeps g' g where
  topicAndType? id := (h.topicAndType? id).symm
  prefs := h.prefs.symm
  watched := h.watched.symm

theorem mem_endpoints (h : Keeps g g') (id : EndpointId) :
    id ∈ g'.endpoints ↔ id ∈ g.endpoints := by
  rw [mem_endpoints_iff, mem_endpoints_iff, h.topicAndType?]

theorem mayWait (h : Keeps g g') (id : EndpointId) : g'.MayWait id ↔ g.MayWait id := by
  rw [MayWait, MayWait, h.mem_endpoints, h.prefs]

end Keeps

/-! ## Graphs that have the same nodes -/

/-- The two graphs have the same participants, and the same nodes in the same slots. -/
structure SameNodes (g g' : Graph) : Prop where
  participants : g'.participants = g.participants
  slots : g'.nodes.slots = g.nodes.slots
  byName : g'.nodes.byName = g.nodes.byName
  address? : ∀ key, g'.nodes.address? key = g.nodes.address? key

namespace SameNodes

theorem refl (g : Graph) : SameNodes g g :=
  ⟨rfl, rfl, rfl, fun _ => rfl⟩

theorem trans (h : SameNodes g g') (h' : SameNodes g' g'') : SameNodes g g'' where
  participants := h'.participants.trans h.participants
  slots := h'.slots.trans h.slots
  byName := h'.byName.trans h.byName
  address? key := (h'.address? key).trans (h.address? key)

theorem symm (h : SameNodes g g') : SameNodes g' g where
  participants := h.participants.symm
  slots := h.slots.symm
  byName := h.byName.symm
  address? key := (h.address? key).symm

theorem hosted (h : SameNodes g g') (gid : Gid) : g'.hosted gid = g.hosted gid := by
  rw [Graph.hosted, Graph.hosted, h.participants]

theorem enclave? (h : SameNodes g g') (gid : Gid) : g'.enclave? gid = g.enclave? gid := by
  rw [Graph.enclave?, Graph.enclave?, h.participants]

theorem hostedNames (h : SameNodes g g') (gid : Gid) : g'.hostedNames gid = g.hostedNames gid := by
  simp only [Graph.hostedNames, h.hosted, h.address?]

end SameNodes

/-! ## Graphs that differ in associations -/

/-- The two graphs have the same participants, nodes and endpoints. -/
structure Rewired (g g' : Graph) : Prop extends Keeps g g', SameNodes g g'

namespace Rewired

theorem refl (g : Graph) : Rewired g g :=
  ⟨.refl g, .refl g⟩

theorem trans (h : Rewired g g') (h' : Rewired g' g'') : Rewired g g'' :=
  ⟨h.toKeeps.trans h'.toKeeps, h.toSameNodes.trans h'.toSameNodes⟩

theorem symm (h : Rewired g g') : Rewired g' g :=
  ⟨h.toKeeps.symm, h.toSameNodes.symm⟩

theorem withPending (g : Graph) (pending : Std.ExtTreeMap EndpointId NodeKey) :
    Rewired g { g with pending } :=
  ⟨⟨fun _ => rfl, rfl, rfl⟩, rfl, rfl, rfl, fun _ => rfl⟩

end Rewired

/-! ## Attaching and detaching -/

theorem attach?_cases (h : g.attach? id key = some g') :
    ∃ node endpoint, g.nodes.get? key = some node ∧ g.endpoints[id]? = some endpoint ∧
      endpoint.link ≠ some key ∧
      g' = { g with
        endpoints := g.endpoints.insert id (endpoint.linked key)
        nodes := (match endpoint.link with
          | some old => g.nodes.detach old id
          | none => g.nodes).attach key id } := by
  unfold attach? at h
  split at h
  · rename_i node endpoint hnode hendpoint
    split at h
    · cases h
    · rename_i hne
      exact ⟨node, endpoint, hnode, hendpoint, hne, (Option.some.inj h).symm⟩
  · cases h

/-- There is nothing to attach to a node that is there exactly if the endpoint is unknown or
belongs to the node already. -/
theorem attach?_eq_none_iff {address : NodeAddress} (hkey : g.nodes.address? key = some address) :
    g.attach? id key = none ↔ id ∉ g.endpoints ∨ g.link? id = some key := by
  obtain ⟨node, hnode, -⟩ := NodeArena.address?_eq_some_iff.mp hkey
  unfold attach? link?
  rw [hnode, Std.ExtTreeMap.mem_iff_isSome_getElem?]
  cases h : g.endpoints[id]? with
  | none => simp
  | some endpoint => by_cases hlink : endpoint.link = some key <;> simp [hlink]

section Attach

variable (h : g.attach? id key = some g')
include h

theorem rewired_attach? : Rewired g g' := by
  obtain ⟨node, endpoint, -, hendpoint, -, rfl⟩ := attach?_cases h
  refine ⟨⟨?_, rfl, rfl⟩, rfl, ?_, ?_, ?_⟩
  · intro next
    simp only [topicAndType?, Std.ExtTreeMap.getElem?_insert, Std.LawfulEqCmp.compare_eq_iff_eq]
    split
    · rename_i heq
      rw [← heq, hendpoint]
      rfl
    · rfl
  · cases endpoint.link <;> rfl
  · cases endpoint.link <;> rfl
  · intro other
    cases endpoint.link <;> simp

theorem pending_attach? : g'.pending = g.pending := by
  obtain ⟨node, endpoint, -, -, -, rfl⟩ := attach?_cases h
  rfl

theorem link?_attach? (next : EndpointId) :
    g'.link? next = if next = id then some key else g.link? next := by
  obtain ⟨node, endpoint, -, -, -, rfl⟩ := attach?_cases h
  simp only [link?, Std.ExtTreeMap.getElem?_insert, Std.LawfulEqCmp.compare_eq_iff_eq,
    eq_comm (a := next)]
  split <;> rfl

theorem lists_attach? (other : NodeKey) (next : EndpointId) :
    g'.nodes.Lists other next ↔
      (other = key ∧ next = id) ∨
        (g.nodes.Lists other next ∧ ¬ (next = id ∧ g.link? id = some other)) := by
  obtain ⟨node, endpoint, hnode, hendpoint, -, rfl⟩ := attach?_cases h
  have hlink : g.link? id = endpoint.link := by simp [link?, hendpoint]
  have haddress : ∃ address, g.nodes.address? key = some address :=
    ⟨node.address, by simp [NodeArena.address?, hnode]⟩
  rw [hlink]
  cases endpoint.link with
  | none => simp [NodeArena.lists_attach, haddress, or_comm]
  | some old =>
    simp only [NodeArena.lists_attach, NodeArena.lists_detach, NodeArena.address?_detach,
      haddress, Option.some.injEq]
    grind

end Attach

theorem detach?_cases (h : g.detach? id key = some g') :
    ∃ endpoint, g.endpoints[id]? = some endpoint ∧ endpoint.link = some key ∧
      g' = { g with
        endpoints := g.endpoints.insert id endpoint.unlinked
        nodes := g.nodes.detach key id } := by
  unfold detach? at h
  split at h
  · rename_i endpoint hendpoint
    split at h
    · rename_i hlink
      exact ⟨endpoint, hendpoint, hlink, (Option.some.inj h).symm⟩
    · cases h
  · cases h

theorem detach?_eq_none_iff : g.detach? id key = none ↔ g.link? id ≠ some key := by
  unfold detach? link?
  cases h : g.endpoints[id]? with
  | none => simp
  | some endpoint => by_cases hlink : endpoint.link = some key <;> simp [hlink]

section Detach

variable (h : g.detach? id key = some g')
include h

theorem rewired_detach? : Rewired g g' := by
  obtain ⟨endpoint, hendpoint, -, rfl⟩ := detach?_cases h
  refine ⟨⟨?_, rfl, rfl⟩, rfl, rfl, rfl, fun other => by simp⟩
  intro next
  simp only [topicAndType?, Std.ExtTreeMap.getElem?_insert, Std.LawfulEqCmp.compare_eq_iff_eq]
  split
  · rename_i heq
    rw [← heq, hendpoint]
    rfl
  · rfl

theorem pending_detach? : g'.pending = g.pending := by
  obtain ⟨endpoint, -, -, rfl⟩ := detach?_cases h
  rfl

theorem link?_detach? (next : EndpointId) :
    g'.link? next = if next = id then none else g.link? next := by
  obtain ⟨endpoint, -, -, rfl⟩ := detach?_cases h
  simp only [link?, Std.ExtTreeMap.getElem?_insert, Std.LawfulEqCmp.compare_eq_iff_eq,
    eq_comm (a := next)]
  split <;> rfl

theorem lists_detach? (other : NodeKey) (next : EndpointId) :
    g'.nodes.Lists other next ↔ g.nodes.Lists other next ∧ ¬ (other = key ∧ next = id) := by
  obtain ⟨endpoint, -, -, rfl⟩ := detach?_cases h
  exact NodeArena.lists_detach

end Detach

end DiscoveryGraph.Graph
