import DiscoveryGraph.Graph.Edit
import DiscoveryGraph.Proofs.Views

/-!
# Well-formed graphs

What holds of every graph that requests lead to. `Consistent` is about endpoints and nodes: both
sides of every association agree, and whatever waits does so at a node that is there, for an
endpoint that is not known. `WellFormed` adds the participants: each hosts exactly the nodes that
name it, each of them once, and no two of the same name.

Every step of a request keeps a graph well-formed, and so does every request. Removing a
participant is the one request that does not proceed by well-formed steps: its nodes outlive its
entry. They go away one after the other, and each step keeps the graph consistent.
-/

namespace DiscoveryGraph.Graph

/-- Endpoints, nodes and waiting associations agree. -/
structure Consistent (g : Graph) : Prop where
  arena : g.nodes.WellFormed
  lists_iff : ∀ id key, g.nodes.Lists key id ↔ g.link? id = some key
  awaiting_live : ∀ (id : EndpointId) (key : NodeKey), g.pending[id]? = some key →
    ∃ address, g.nodes.address? key = some address
  awaiting_unknown : ∀ (id : EndpointId) (key : NodeKey), g.pending[id]? = some key →
    id ∉ g.endpoints
  awaiting_allowed : ∀ (id : EndpointId) (key : NodeKey), g.pending[id]? = some key →
    g.prefs.reconcile.deferUnknownEndpoints = true

/-- Endpoints, nodes, waiting associations and participants agree. -/
structure WellFormed (g : Graph) : Prop extends Consistent g where
  mem_hosted_iff : ∀ gid key, key ∈ g.hosted gid ↔
    ∃ name, g.nodes.address? key = some ⟨gid, name⟩
  nodup_hosted : ∀ gid, (g.hosted gid).Nodup
  address?_inj : ∀ key other address, g.nodes.address? key = some address →
    g.nodes.address? other = some address → key = other

variable {g g' : Graph} {id next : EndpointId} {key other : NodeKey} {gid : Gid}
  {name : NodeName}

theorem Consistent.address?_of_link? (h : g.Consistent) (hlink : g.link? id = some key) :
    ∃ address, g.nodes.address? key = some address :=
  ((h.lists_iff id key).mpr hlink).address?

theorem wellFormed_emptyWith (policy : SlotPolicy) (prefs : Prefs) :
    (emptyWith policy prefs).WellFormed where
  arena := NodeArena.wellFormed_empty policy
  lists_iff := by simp [emptyWith, NodeArena.empty, NodeArena.Lists, NodeArena.get?, link?]
  awaiting_live := by simp [emptyWith]
  awaiting_unknown := by simp [emptyWith]
  awaiting_allowed := by simp [emptyWith]
  mem_hosted_iff := by
    simp [emptyWith, hosted, NodeArena.empty, NodeArena.address?, NodeArena.get?]
  nodup_hosted := by simp [emptyWith, hosted]
  address?_inj := by simp [emptyWith, NodeArena.empty, NodeArena.address?, NodeArena.get?]

namespace WellFormed

/-- A node is found exactly under its participant and its name. -/
theorem find?_eq_some_iff (h : g.WellFormed) :
    g.nodes.find? gid name = some key ↔ g.nodes.address? key = some ⟨gid, name⟩ :=
  h.arena.find?_eq_some_iff h.address?_inj

theorem find?_eq_none_iff (h : g.WellFormed) :
    g.nodes.find? gid name = none ↔ ∀ key, g.nodes.address? key ≠ some ⟨gid, name⟩ := by
  rw [Option.eq_none_iff_forall_ne_some]
  exact forall_congr' fun key => not_congr h.find?_eq_some_iff

/-- An endpoint is at home at the address of a node exactly if it belongs to that node. -/
theorem home?_eq_some_iff (h : g.WellFormed) {address : NodeAddress}
    (hkey : g.nodes.address? key = some address) :
    g.home? id = some address ↔ g.link? id = some key := by
  simp only [home?, Option.bind_eq_some_iff]
  constructor
  · rintro ⟨other, hlink, hother⟩
    rw [hlink, h.address?_inj _ _ _ hother hkey]
  · intro hlink
    exact ⟨key, hlink, hkey⟩

/-- A node is awaited at the address of a slot exactly if it waits in that slot. -/
theorem awaiting?_eq_some_iff (h : g.WellFormed) {address : NodeAddress}
    (hkey : g.nodes.address? key = some address) :
    g.awaiting? id = some address ↔ g.pending[id]? = some key := by
  simp only [awaiting?, Option.bind_eq_some_iff]
  constructor
  · rintro ⟨other, hpending, hother⟩
    rw [hpending, h.address?_inj _ _ _ hother hkey]
  · intro hpending
    exact ⟨key, hpending, hkey⟩

theorem awaiting?_of_mem (h : g.WellFormed) (hid : id ∈ g.endpoints) : g.awaiting? id = none := by
  have hpending : g.pending[id]? = none :=
    Option.eq_none_iff_forall_ne_some.mpr fun key hkey => h.awaiting_unknown id key hkey hid
  rw [awaiting?, hpending, Option.bind_none]

/-- A participant hosts a node of some name exactly if there is a node of this name under it. -/
theorem mem_hostedNames_iff (h : g.WellFormed) :
    name ∈ g.hostedNames gid ↔ ∃ key, g.nodes.address? key = some ⟨gid, name⟩ := by
  simp only [hostedNames, List.mem_filterMap, Option.map_eq_some_iff]
  constructor
  · rintro ⟨key, hkey, address, haddress, rfl⟩
    obtain ⟨other, hother⟩ := (h.mem_hosted_iff gid key).mp hkey
    have : address = ⟨gid, other⟩ := Option.some.inj (haddress.symm.trans hother)
    exact ⟨key, by rw [haddress, this]⟩
  · rintro ⟨key, hkey⟩
    exact ⟨key, (h.mem_hosted_iff gid key).mpr ⟨name, hkey⟩, _, hkey, rfl⟩

/-- A participant hosts no two nodes of the same name. -/
theorem nodup_hostedNames (h : g.WellFormed) (gid : Gid) : (g.hostedNames gid).Nodup := by
  refine List.pairwise_filterMap.mpr ((h.nodup_hosted gid).imp_of_mem ?_)
  intro key other hkey hother hne name hname name' hname' heq
  obtain ⟨address, haddress⟩ := (h.mem_hosted_iff gid key).mp hkey
  obtain ⟨address', haddress'⟩ := (h.mem_hosted_iff gid other).mp hother
  have hat : address = name := by simpa [haddress] using hname
  have hat' : address' = name' := by simpa [haddress'] using hname'
  rw [hat] at haddress
  rw [hat', ← heq] at haddress'
  exact hne (h.address?_inj key other _ haddress haddress')

theorem isSome_find?_iff (h : g.WellFormed) :
    (g.nodes.find? gid name).isSome ↔ name ∈ g.hostedNames gid := by
  rw [h.mem_hostedNames_iff, Option.isSome_iff_exists]
  exact exists_congr fun key => h.find?_eq_some_iff

/-- The participants may change as long as they host the same nodes. -/
theorem withParticipants (h : g.WellFormed) {participants : Std.ExtTreeMap Gid Participant}
    (hhosted : ∀ gid, ({ g with participants } : Graph).hosted gid = g.hosted gid) :
    ({ g with participants } : Graph).WellFormed where
  toConsistent := ⟨h.arena, h.lists_iff, h.awaiting_live, h.awaiting_unknown, h.awaiting_allowed⟩
  mem_hosted_iff gid key := by
    rw [hhosted]
    exact h.mem_hosted_iff gid key
  nodup_hosted gid := by
    rw [hhosted]
    exact h.nodup_hosted gid
  address?_inj := h.address?_inj

/-- Two well-formed graphs that differ in associations at most are equal when the endpoints have
the same links and the same associations wait. -/
theorem ext (h : g.WellFormed) (h' : g'.WellFormed) (hr : Rewired g g')
    (hlink : ∀ id, g'.link? id = g.link? id)
    (hpending : ∀ id : EndpointId, g'.pending[id]? = g.pending[id]?) : g' = g := by
  have hendpoints : g'.endpoints = g.endpoints := endpoints_ext hr.topicAndType? hlink
  have hnodes : g'.nodes = g.nodes := by
    refine NodeArena.ext hr.slots hr.byName hr.address? ?_
    intro key id
    rw [h'.lists_iff, h.lists_iff, hlink]
  have hwaiting : g'.pending = g.pending := Std.ExtTreeMap.ext_getElem? hpending
  have hparticipants := hr.participants
  have hprefs := hr.prefs
  have hwatched := hr.watched
  cases g
  cases g'
  simp_all

/-! ## Associations -/

/-- Endpoints and associations may change as long as both sides of each agree and what waits may
wait. -/
theorem of_sameNodes (h : g.WellFormed) (hn : SameNodes g g')
    (hlists : ∀ id key, g'.nodes.Lists key id ↔ g'.link? id = some key)
    (hpending : ∀ (id : EndpointId) (key : NodeKey), g'.pending[id]? = some key →
      (∃ address, g.nodes.address? key = some address) ∧ g'.MayWait id) : g'.WellFormed where
  arena := h.arena.congr hn.slots hn.byName hn.address?
  lists_iff := hlists
  awaiting_live id key hid := by
    rw [hn.address?]
    exact (hpending id key hid).1
  awaiting_unknown id key hid := (hpending id key hid).2.1
  awaiting_allowed id key hid := (hpending id key hid).2.2
  mem_hosted_iff gid key := by
    rw [hn.hosted, hn.address?]
    exact h.mem_hosted_iff gid key
  nodup_hosted gid := by
    rw [hn.hosted]
    exact h.nodup_hosted gid
  address?_inj key other address := by
    rw [hn.address?, hn.address?]
    exact h.address?_inj key other address

theorem mayWait (h : g.WellFormed) (hid : g.pending[id]? = some key) : g.MayWait id :=
  ⟨h.awaiting_unknown id key hid, h.awaiting_allowed id key hid⟩

theorem rewire (h : g.WellFormed) (hr : Rewired g g')
    (hlists : ∀ id key, g'.nodes.Lists key id ↔ g'.link? id = some key)
    (hpending : ∀ (id : EndpointId) (key : NodeKey), g'.pending[id]? = some key →
      g.pending[id]? = some key ∨
        ((∃ address, g.nodes.address? key = some address) ∧ g.MayWait id)) : g'.WellFormed := by
  refine h.of_sameNodes hr.toSameNodes hlists fun id key hid => ?_
  rw [hr.mayWait]
  rcases hpending id key hid with hold | hnew
  · exact ⟨h.awaiting_live id key hold, h.mayWait hold⟩
  · exact hnew

theorem attach? (h : g.WellFormed) (hg : g.attach? id key = some g') : g'.WellFormed := by
  refine h.rewire (rewired_attach? hg) ?_ fun next other hnext =>
    Or.inl (pending_attach? hg ▸ hnext)
  intro next other
  rw [lists_attach? hg, link?_attach? hg, h.lists_iff]
  by_cases hid : next = id
  · subst hid
    simp [eq_comm (a := other)]
  · simp [hid]

theorem detach? (h : g.WellFormed) (hg : g.detach? id key = some g') : g'.WellFormed := by
  obtain ⟨endpoint, hendpoint, hkey, -⟩ := detach?_cases hg
  have hlink : g.link? id = some key := by simp [link?, hendpoint, hkey]
  refine h.rewire (rewired_detach? hg) ?_ fun next other hnext =>
    Or.inl (pending_detach? hg ▸ hnext)
  intro next other
  rw [lists_detach? hg, link?_detach? hg, h.lists_iff]
  by_cases hid : next = id
  · subst hid
    simp [hlink, eq_comm (a := key)]
  · simp [hid]

/-- Whatever waits may stop to wait. -/
theorem retain (h : g.WellFormed) (keep : EndpointId → NodeKey → Bool) :
    ({ g with pending := g.pending.filter keep } : Graph).WellFormed := by
  refine h.rewire (.withPending g _) h.lists_iff ?_
  intro id key hid
  simp only [Std.ExtTreeMap.getElem?_filter', Option.filter_eq_some_iff] at hid
  exact Or.inl hid.1

/-- A node may wait for an endpoint that is not known, if the preferences allow it. -/
theorem park (h : g.WellFormed) {address : NodeAddress}
    (hkey : g.nodes.address? key = some address) (hid : g.MayWait id) :
    ({ g with pending := g.pending.insert id key } : Graph).WellFormed := by
  refine h.rewire (.withPending g _) h.lists_iff ?_
  intro next other hnext
  simp only [Std.ExtTreeMap.getElem?_insert, Std.LawfulEqCmp.compare_eq_iff_eq] at hnext
  split at hnext
  · rename_i heq
    cases hnext
    exact Or.inr ⟨⟨address, hkey⟩, heq ▸ hid⟩
  · exact Or.inl hnext

end WellFormed

end DiscoveryGraph.Graph
