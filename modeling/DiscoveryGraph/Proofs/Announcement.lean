import DiscoveryGraph.Proofs.Reachable

/-!
# Announcing an endpoint

What an announcement does to the views of a graph: the endpoint becomes known, and if a node waits
for it, it belongs to that node from then on. The nodes are not touched, so that a graph after an
announcement differs from the one before in the place of one endpoint only.

* `announced_addEndpoint`: the announcement of an endpoint that is not known.
* `addEndpoint_comm`: two endpoints may be announced in either order.
-/

namespace DiscoveryGraph.Graph

variable {g g' : Graph} {id next : EndpointId} {key : NodeKey} {topic type : String}

/-! ## Graphs from the places of their endpoints -/

namespace WellFormed

theorem link?_eq_some_iff (h : g.WellFormed) : g.link? id = some key ↔
    ∃ address, g.nodes.address? key = some address ∧ g.home? id = some address := by
  constructor
  · intro hlink
    obtain ⟨address, haddress⟩ := h.toConsistent.address?_of_link? hlink
    exact ⟨address, haddress, (h.home?_eq_some_iff haddress).mpr hlink⟩
  · rintro ⟨address, haddress, hhome⟩
    exact (h.home?_eq_some_iff haddress).mp hhome

theorem link?_eq_none_iff (h : g.WellFormed) : g.link? id = none ↔ g.home? id = none := by
  rw [home?, Option.bind_eq_none_iff]
  constructor
  · intro hlink key hkey
    rw [hlink] at hkey
    cases hkey
  · intro hvacant
    refine Option.eq_none_iff_forall_ne_some.mpr fun key hkey => ?_
    obtain ⟨address, haddress⟩ := h.toConsistent.address?_of_link? hkey
    rw [hvacant key hkey] at haddress
    cases haddress

theorem pending_eq_some_iff (h : g.WellFormed) : g.pending[id]? = some key ↔
    ∃ address, g.nodes.address? key = some address ∧ g.awaiting? id = some address := by
  constructor
  · intro hpending
    obtain ⟨address, haddress⟩ := h.awaiting_live id key hpending
    exact ⟨address, haddress, (h.awaiting?_eq_some_iff haddress).mpr hpending⟩
  · rintro ⟨address, haddress, hwaits⟩
    exact (h.awaiting?_eq_some_iff haddress).mp hwaits

/-- Two well-formed graphs that differ in associations at most are equal when the endpoints are at
home at the same nodes and are awaited by the same nodes. -/
theorem ext_places (h : g.WellFormed) (h' : g'.WellFormed) (hr : Rewired g g')
    (hhome : ∀ id, g'.home? id = g.home? id)
    (hawaiting : ∀ id, g'.awaiting? id = g.awaiting? id) : g' = g := by
  refine h.ext h' hr ?_ ?_
  · intro id
    apply Option.ext
    intro key
    rw [h'.link?_eq_some_iff, h.link?_eq_some_iff, hr.address?, hhome]
  · intro id
    apply Option.ext
    intro key
    rw [h'.pending_eq_some_iff, h.pending_eq_some_iff, hr.address?, hawaiting]

end WellFormed

/-! ## An endpoint becomes known -/

/-- What the announcement of an endpoint does that is not known. -/
structure Announced (id : EndpointId) (topic type : String) (g g' : Graph) : Prop
    extends SameNodes g g' where
  wellFormed : g'.WellFormed
  prefs : g'.prefs = g.prefs
  watched : g'.watched = g.watched
  topicAndType? : ∀ next, g'.topicAndType? next =
    if next = id then some (topic, type) else g.topicAndType? next
  link? : ∀ next, g'.link? next = if next = id then g.pending[id]? else g.link? next
  pending : ∀ next : EndpointId, g'.pending[next]? =
    if next = id then none else g.pending[next]?

namespace Announced

variable (ha : Announced id topic type g g')
include ha

theorem home? (next : EndpointId) :
    g'.home? next = if next = id then g.awaiting? id else g.home? next := by
  unfold Graph.home? Graph.awaiting?
  rw [ha.link?, funext ha.address?]
  split <;> rfl

theorem awaiting? (next : EndpointId) :
    g'.awaiting? next = if next = id then none else g.awaiting? next := by
  unfold Graph.awaiting?
  rw [ha.pending, funext ha.address?]
  split <;> rfl

theorem mem_endpoints (next : EndpointId) :
    next ∈ g'.endpoints ↔ next = id ∨ next ∈ g.endpoints := by
  rw [mem_endpoints_iff, mem_endpoints_iff, ha.topicAndType?]
  by_cases hnext : next = id <;> simp [hnext]

end Announced

/-- An endpoint that is known already is refused. -/
theorem graph_addEndpoint_of_mem (hid : id ∈ g.endpoints) :
    (g.addEndpoint id topic type).graph = g := by
  rw [addEndpoint, if_pos hid]
  rfl

theorem result_addEndpoint_eq_ok_iff :
    (g.addEndpoint id topic type).result = .ok () ↔ id ∉ g.endpoints := by
  unfold addEndpoint
  by_cases hid : id ∈ g.endpoints
  · simp [hid, refuse]
  · rw [if_neg hid]
    cases g.pending[id]? with
    | none => simp [hid, commit]
    | some key =>
      dsimp only
      split <;> simp [hid, commit]

section Announce

variable (g id topic type) (pending : Std.ExtTreeMap EndpointId NodeKey)

theorem topicAndType?_announce (next : EndpointId) :
    ({ g with
      endpoints := g.endpoints.insert id (.announced topic type)
      pending } : Graph).topicAndType? next =
      if next = id then some (topic, type) else g.topicAndType? next := by
  simp only [topicAndType?, Std.ExtTreeMap.getElem?_insert, Std.LawfulEqCmp.compare_eq_iff_eq,
    eq_comm (a := next)]
  split <;> rfl

theorem link?_announce (next : EndpointId) :
    ({ g with
      endpoints := g.endpoints.insert id (.announced topic type)
      pending } : Graph).link? next = if next = id then none else g.link? next := by
  simp only [link?, Std.ExtTreeMap.getElem?_insert, Std.LawfulEqCmp.compare_eq_iff_eq,
    eq_comm (a := next)]
  split <;> rfl

end Announce

theorem announced_addEndpoint (h : g.WellFormed) (hid : id ∉ g.endpoints) (topic type : String) :
    Announced id topic type g (g.addEndpoint id topic type).graph := by
  have hwf := h.addEndpoint id topic type
  unfold addEndpoint at hwf ⊢
  rw [if_neg hid] at hwf ⊢
  cases hwaiting : g.pending[id]? with
  | none =>
    rw [hwaiting] at hwf
    exact {
      toSameNodes := ⟨rfl, rfl, rfl, fun _ => rfl⟩
      wellFormed := hwf
      prefs := rfl
      watched := rfl
      topicAndType? := topicAndType?_announce g id topic type g.pending
      link? := by
        intro next
        rw [hwaiting]
        exact link?_announce g id topic type g.pending next
      pending := by
        intro next
        by_cases hnext : next = id
        · simp [commit, hnext, hwaiting]
        · simp [commit, hnext] }
  | some key =>
    rw [hwaiting] at hwf
    -- The node that waits is there, and the endpoint belongs to no node, so it is attached.
    obtain ⟨address, haddress⟩ := h.awaiting_live id key hwaiting
    let known : Graph := { g with
      endpoints := g.endpoints.insert id (.announced topic type)
      pending := g.pending.erase id }
    have hkey : known.nodes.address? key = some address := haddress
    cases hattach : known.attach? id key with
    | none =>
      rcases (attach?_eq_none_iff hkey).mp hattach with hunknown | hlinked
      · simp [known] at hunknown
      · rw [link?_announce, if_pos rfl] at hlinked
        cases hlinked
    | some done =>
      have hr := rewired_attach? hattach
      simp only [known] at hattach
      simp only [hattach] at hwf ⊢
      exact {
        toSameNodes := ⟨hr.participants, hr.slots, hr.byName, hr.address?⟩
        wellFormed := hwf
        prefs := hr.prefs
        watched := hr.watched
        topicAndType? := by
          intro next
          exact (hr.topicAndType? next).trans
            (topicAndType?_announce g id topic type (g.pending.erase id) next)
        link? := by
          intro next
          refine (link?_attach? hattach next).trans ?_
          rw [link?_announce, hwaiting]
          split <;> rfl
        pending := by
          intro next
          simp only [commit, pending_attach? hattach, Std.ExtTreeMap.getElem?_erase,
            Std.LawfulEqCmp.compare_eq_iff_eq, eq_comm (a := next)] }

/-- Two endpoints that are not known may be announced in either order. -/
theorem WellFormed.addEndpoint_comm (h : g.WellFormed) (hid : id ∉ g.endpoints)
    (hnext : next ∉ g.endpoints) (hne : id ≠ next) (topic type topic' type' : String) :
    ((g.addEndpoint id topic type).graph.addEndpoint next topic' type').graph =
      ((g.addEndpoint next topic' type').graph.addEndpoint id topic type).graph := by
  have ha := announced_addEndpoint h hid topic type
  have hb := announced_addEndpoint h hnext topic' type'
  have hnext' : next ∉ (g.addEndpoint id topic type).graph.endpoints := by
    simp [ha.mem_endpoints, hne.symm, hnext]
  have hid' : id ∉ (g.addEndpoint next topic' type').graph.endpoints := by
    simp [hb.mem_endpoints, hne, hid]
  have hab := announced_addEndpoint ha.wellFormed hnext' topic' type'
  have hba := announced_addEndpoint hb.wellFormed hid' topic type
  refine hba.wellFormed.ext hab.wellFormed ⟨⟨?_, ?_, ?_⟩, ?_⟩ ?_ ?_
  · intro other
    rw [hab.topicAndType?, ha.topicAndType?, hba.topicAndType?, hb.topicAndType?]
    by_cases hother : other = id <;> simp [hother, hne]
  · rw [hab.prefs, ha.prefs, hba.prefs, hb.prefs]
  · rw [hab.watched, ha.watched, hba.watched, hb.watched]
  · exact (hb.toSameNodes.trans hba.toSameNodes).symm.trans (ha.toSameNodes.trans hab.toSameNodes)
  · intro other
    rw [hab.link?, ha.link?, ha.pending, hba.link?, hb.link?, hb.pending, if_neg hne,
      if_neg hne.symm]
    by_cases hother : other = id <;> simp [hother, hne]
  · intro other
    rw [hab.pending, ha.pending, hba.pending, hb.pending]
    by_cases hother : other = id <;> simp [hother]

end DiscoveryGraph.Graph
