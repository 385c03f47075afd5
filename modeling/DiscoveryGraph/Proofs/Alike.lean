import DiscoveryGraph.Graph.Query
import DiscoveryGraph.Proofs.Announcement
import DiscoveryGraph.Proofs.Convergence
import DiscoveryGraph.Proofs.Namesakes
import DiscoveryGraph.Proofs.Topics

/-!
# Graphs that answer alike

Two graphs may hold the same in different slots. `SameContent` says that they do: the same
endpoints, participants with the same nodes in the same order, and the same associations by
address. `Alike` adds that nodes of one name, which different participants host, have been created
in the same order. No query shows more than this.

* `SameContent.ask`: the queries that do not depend on the order among nodes of one name.
* `Alike.ask`: all queries.
-/

namespace DiscoveryGraph

open Std (ExtTreeMap)

/-- What is known of an endpoint, with an address for the slot. -/
structure PlacedEndpoint where
  topic : String
  type : String
  home : Option NodeAddress

namespace Graph

/-- The two graphs hold the same, whatever the slots. -/
structure SameContent (g g' : Graph) : Prop extends Keeps g g' where
  wellFormed : g.WellFormed
  wellFormed' : g'.WellFormed
  enclave? : ∀ gid, g'.enclave? gid = g.enclave? gid
  hostedNames : ∀ gid, g'.hostedNames gid = g.hostedNames gid
  home? : ∀ id, g'.home? id = g.home? id
  awaiting? : ∀ id, g'.awaiting? id = g.awaiting? id

/-- The two graphs hold the same, and have created nodes of one name in the same order. -/
structure Alike (g g' : Graph) : Prop extends SameContent g g' where
  hostsOf : ∀ name, g'.nodes.hostsOf name = g.nodes.hostsOf name

variable {g g' : Graph} {id : EndpointId} {gid : Gid} {name : NodeName} {kind : EndpointKind}
  {topic type : String}

theorem Alike.refl (h : g.WellFormed) : Alike g g :=
  ⟨⟨.refl g, h, h, fun _ => rfl, fun _ => rfl, fun _ => rfl, fun _ => rfl⟩, fun _ => rfl⟩

/-! ## What queries read -/

section Reads

variable (g)

/-- An endpoint with the address of its node. -/
def placed (endpoint : Endpoint) : PlacedEndpoint where
  topic := endpoint.topic
  type := endpoint.type
  home := endpoint.link.bind g.nodes.address?

/-- The endpoints with the addresses of their nodes. -/
def placedEndpoints : ExtTreeMap EndpointId PlacedEndpoint :=
  g.endpoints.map fun _ endpoint => g.placed endpoint

/-- The addresses of the nodes that wait for endpoints. -/
def awaited : ExtTreeMap EndpointId (Option NodeAddress) :=
  g.pending.map fun _ key => g.nodes.address? key

/-- The participants with their enclaves and total states. -/
def states : ExtTreeMap Gid (String × Snapshot) :=
  g.participants.map fun gid participant => (participant.enclave, g.snapshotOf gid participant)

/-- The endpoints on a topic, as entries of the table. -/
theorem mem_endpointsOn_iff {kind : EndpointKind} {topic : String}
    {entry : EndpointId × Endpoint} : entry ∈ g.endpointsOn kind topic ↔
      g.endpoint? entry.1 = some entry.2 ∧ entry.1.kind = kind ∧ entry.2.topic = topic := by
  obtain ⟨id, endpoint⟩ := entry
  simp only [endpointsOn, endpointsOf, List.mem_filter, decide_eq_true_eq,
    ExtTreeMap.mem_toList_iff_getElem?_eq_some, and_assoc]
  rfl

theorem nodup_endpointsOn (kind : EndpointKind) (topic : String) :
    ((g.endpointsOn kind topic).map (·.1)).Nodup := by
  have hdistinct : (g.endpoints.toList.map (·.1)).Nodup := by
    rw [ExtTreeMap.map_fst_toList_eq_keys]
    exact ExtTreeMap.nodup_keys
  exact hdistinct.sublist ((List.filter_sublist.trans List.filter_sublist).map _)

theorem map_endpointsOn (kind : EndpointKind) (topic : String) :
    (g.endpointsOn kind topic).map (fun entry => (entry.1, g.placed entry.2)) =
      (g.placedEndpoints.toList.filter (·.1.kind = kind)).filter (·.2.topic = topic) := by
  rw [endpointsOn, endpointsOf, placedEndpoints, ExtTreeMap.toList_map, List.filter_map,
    List.filter_map]
  rfl

theorem endpointCount_eq (kind : EndpointKind) (topic : String) : g.endpointCount kind topic =
    ((g.placedEndpoints.toList.filter (·.1.kind = kind)).filter (·.2.topic = topic)).length := by
  rw [← map_endpointsOn, List.length_map]
  rfl

theorem ownerName_eq (endpoint : Endpoint) : g.ownerName endpoint =
    ((endpoint.link.bind g.nodes.address?).map (·.name)).getD .unknown := by
  rw [ownerName]
  cases endpoint.link with
  | none => rfl
  | some key =>
    simp only [Option.bind_some, NodeArena.address?, Option.map_map]
    rfl

theorem infoByTopic_eq (kind : EndpointKind) (topic : String) (demangleType : Demangler) :
    g.infoByTopic kind topic demangleType =
      ((g.placedEndpoints.toList.filter (·.1.kind = kind)).filter (·.2.topic = topic)).map
        fun entry =>
          { node := (entry.2.home.map (·.name)).getD .unknown
            type := demangleType entry.2.type
            id := entry.1 } := by
  rw [← map_endpointsOn, List.map_map, infoByTopic]
  simp only [g.ownerName_eq]
  rfl

/-- The topics and types of all endpoints. -/
theorem exists_mem_endpoints_iff : (∃ endpoint ∈ g.endpoints.toList.map (·.2),
      endpoint.topic = topic ∧ endpoint.type = type) ↔
    ∃ id, g.topicAndType? id = some (topic, type) := by
  simp only [List.mem_map, Prod.exists, ExtTreeMap.mem_toList_iff_getElem?_eq_some,
    exists_eq_right, topicAndType?, Option.map_eq_some_iff, Prod.mk.injEq]
  constructor
  · rintro ⟨endpoint, ⟨id, hid⟩, hnames⟩
    exact ⟨id, endpoint, hid, hnames⟩
  · rintro ⟨id, endpoint, hid, hnames⟩
    exact ⟨endpoint, ⟨id, hid⟩, hnames⟩

/-- The lines of one participant are a matter of its enclave and its total state. -/
theorem participantLines_eq (gid : Gid) (participant : Participant) :
    g.participantLines gid participant =
      [s!"  gid: {gid.text}", s!"  enclave: {participant.enclave}", "  nodes:"] ++
        (g.snapshotOf gid participant).nodes.flatMap fun entry =>
          s!"    {entry.node.text}" :: (entry.readers.map fun gid => s!"      reader: {gid.text}") ++
            entry.writers.map fun gid => s!"      writer: {gid.text}" := by
  rw [participantLines, snapshotOf, List.flatMap_map]
  rfl

theorem dumpLines_eq : g.dumpLines =
    "Participants:" ::
      (g.states.toList.flatMap fun entry =>
        [s!"  gid: {entry.1.text}", s!"  enclave: {entry.2.1}", "  nodes:"] ++
          entry.2.2.nodes.flatMap fun node =>
            s!"    {node.node.text}" :: (node.readers.map fun gid => s!"      reader: {gid.text}") ++
              node.writers.map fun gid => s!"      writer: {gid.text}") ++
      s!"Endpoints ({g.placedEndpoints.size}):" ::
      g.placedEndpoints.toList.map fun entry =>
        endpointLine entry.1 (.announced entry.2.topic entry.2.type) := by
  rw [dumpLines, states, placedEndpoints, ExtTreeMap.toList_map, ExtTreeMap.toList_map,
    ExtTreeMap.size_map, List.flatMap_map, List.map_map]
  simp only [participantLines_eq]
  rfl

end Reads

namespace WellFormed

variable (h : g.WellFormed)
include h

theorem facts_endpoint? (id : EndpointId) : (g.endpoint? id).map (·.facts id) =
    (g.topicAndType? id).map fun names => ⟨id, names.1, names.2, (g.home? id).isSome⟩ := by
  have hplace : (g.link? id).isSome = (g.home? id).isSome := by
    rw [Bool.eq_iff_iff, ← Option.ne_none_iff_isSome, ← Option.ne_none_iff_isSome, ne_eq, ne_eq,
      h.link?_eq_none_iff]
  rw [← hplace, endpoint?, topicAndType?, link?]
  cases g.endpoints[id]? <;> rfl

theorem getElem?_awaited (id : EndpointId) : g.awaited[id]? = (g.awaiting? id).map some := by
  rw [awaited, ExtTreeMap.getElem?_map, awaiting?]
  cases hkey : g.pending[id]? with
  | none => rfl
  | some key =>
    obtain ⟨address, haddress⟩ := h.awaiting_live id key hkey
    simp [haddress]

/-- The names of all nodes in order, as often as there are nodes. -/
theorem nodeNames_eq : g.nodeNames =
    (g.nodes.hosts.map fun _ gids => gids.length).toList.flatMap fun entry =>
      .replicate entry.2 entry.1 := by
  have hnames : g.nodeNames = (g.nodes.listing.map NodeRecord.address).map (·.name) := by
    rw [nodeNames, List.map_map]
    rfl
  rw [hnames, h.arena.addresses_listing, ExtTreeMap.toList_map, List.flatMap_map, List.map_flatMap]
  simp only [List.map_map, Function.comp_def, List.map_const']

theorem nodeNamesWithEnclaves_eq : g.nodeNamesWithEnclaves =
    g.nodes.hosts.toList.flatMap fun entry =>
      entry.2.map fun gid => (entry.1, (g.enclave? gid).getD "") := by
  have hnames : g.nodeNamesWithEnclaves =
      (g.nodes.listing.map NodeRecord.address).map fun address =>
        (address.name, (g.enclave? address.participant).getD "") := by
    rw [nodeNamesWithEnclaves, List.map_map]
    rfl
  rw [hnames, h.arena.addresses_listing, List.map_flatMap]
  simp only [List.map_map, Function.comp_def]

theorem nodeCount_eq : g.nodeCount = g.nodeNames.length := by
  rw [nodeCount, h.arena.size_eq_length_listing, nodeNames, List.length_map]

theorem nodup_hostsOf (name : NodeName) : (g.nodes.hostsOf name).Nodup :=
  h.arena.nodup_hostsOf h.address?_inj

theorem mem_hostsOf_iff : gid ∈ g.nodes.hostsOf name ↔ name ∈ g.hostedNames gid := by
  rw [h.arena.mem_hostsOf, h.mem_hostedNames_iff]

/-- The endpoints listed by the nodes called `name` are those at home there. -/
theorem mem_byNode_iff {endpoint : Endpoint} :
    endpoint ∈ ((g.nodes.called name).flatMap fun node =>
        (node.listed kind).filterMap fun gid => g.endpoints[(⟨kind, gid⟩ : EndpointId)]?) ↔
      ∃ gid address, g.endpoint? ⟨kind, gid⟩ = some endpoint ∧
        g.home? ⟨kind, gid⟩ = some address ∧ address.name = name := by
  simp only [List.mem_flatMap, List.mem_filterMap, NodeArena.called]
  constructor
  · rintro ⟨node, ⟨key, hkey, hnode⟩, gid, hgid, hendpoint⟩
    obtain ⟨owner, haddress⟩ := (h.arena.mem_keysOf name key).mp hkey
    have hlists : g.nodes.Lists key ⟨kind, gid⟩ := ⟨node, hnode, NodeRecord.mem_listed.mp hgid⟩
    exact ⟨gid, ⟨owner, name⟩, hendpoint,
      (h.home?_eq_some_iff haddress).mpr ((h.lists_iff _ _).mp hlists), rfl⟩
  · rintro ⟨gid, ⟨owner, _⟩, hendpoint, hhome, rfl⟩
    obtain ⟨key, hlink, haddress⟩ := Option.bind_eq_some_iff.mp hhome
    obtain ⟨node, hnode, hid⟩ := (h.lists_iff _ _).mpr hlink
    exact ⟨node, ⟨key, (h.arena.mem_keysOf _ key).mpr ⟨owner, haddress⟩, hnode⟩, gid,
      NodeRecord.mem_listed.mpr hid, hendpoint⟩

/-- The topics and types at the nodes called `name` are those of the endpoints at home there. -/
theorem exists_mem_byNode_iff : (∃ endpoint ∈ (g.nodes.called name).flatMap fun node =>
      (node.listed kind).filterMap fun gid => g.endpoints[(⟨kind, gid⟩ : EndpointId)]?,
        endpoint.topic = topic ∧ endpoint.type = type) ↔
    ∃ gid address, g.home? ⟨kind, gid⟩ = some address ∧ address.name = name ∧
      g.topicAndType? ⟨kind, gid⟩ = some (topic, type) := by
  simp only [h.mem_byNode_iff, topicAndType?, Option.map_eq_some_iff, Prod.mk.injEq]
  constructor
  · rintro ⟨endpoint, ⟨gid, address, hendpoint, hhome, hname⟩, hnames⟩
    exact ⟨gid, address, hhome, hname, endpoint, hendpoint, hnames⟩
  · rintro ⟨gid, address, hhome, hname, endpoint, hendpoint, hnames⟩
    exact ⟨endpoint, ⟨gid, address, hendpoint, hhome, hname⟩, hnames⟩

end WellFormed

/-! ## Graphs with the same content -/

namespace SameContent

variable (h : SameContent g g')
include h

theorem snapshot? (gid : Gid) : g'.snapshot? gid = g.snapshot? gid := by
  have hknown : (g'.snapshot? gid).isSome ↔ (g.snapshot? gid).isSome := by
    rw [isSome_snapshot?_iff, isSome_snapshot?_iff, mem_participants_iff, mem_participants_iff,
      h.enclave?]
  cases hstate : g.snapshot? gid with
  | none => simpa [hstate] using hknown
  | some state =>
    obtain ⟨state', hstate'⟩ := Option.isSome_iff_exists.mp (hknown.mpr (by simp [hstate]))
    rw [hstate', Option.some.injEq]
    refine Snapshot.ext_nodes ((gid_snapshot? hstate').trans (gid_snapshot? hstate).symm) ?_ ?_
    · rw [names_snapshot? hstate', names_snapshot? hstate, h.hostedNames]
    · intro entry hentry entry' hentry' hnode
      refine h.wellFormed'.entry_eq_of_home? h.wellFormed hstate' hstate ?_ hentry hentry' hnode
      intro id name
      rw [h.home?]

theorem placedEndpoints : g'.placedEndpoints = g.placedEndpoints := by
  have hread : ∀ (g : Graph) (id : EndpointId), g.placedEndpoints[id]? =
      (g.topicAndType? id).map fun names => ⟨names.1, names.2, g.home? id⟩ := by
    intro g id
    rw [Graph.placedEndpoints, ExtTreeMap.getElem?_map, Graph.topicAndType?, Graph.home?, link?]
    cases g.endpoints[id]? <;> rfl
  apply ExtTreeMap.ext_getElem?
  intro id
  rw [hread, hread, h.topicAndType?, h.home?]

theorem states : g'.states = g.states := by
  have hread : ∀ (g : Graph) (gid : Gid), g.states[gid]? =
      (g.enclave? gid).bind fun enclave => (g.snapshot? gid).map (enclave, ·) := by
    intro g gid
    rw [Graph.states, ExtTreeMap.getElem?_map, Graph.enclave?, Graph.snapshot?]
    cases g.participants[gid]? <;> rfl
  apply ExtTreeMap.ext_getElem?
  intro gid
  rw [hread, hread, h.enclave?, h.snapshot?]

theorem awaited : g'.awaited = g.awaited := by
  apply ExtTreeMap.ext_getElem?
  intro id
  rw [h.wellFormed'.getElem?_awaited, h.wellFormed.getElem?_awaited, h.awaiting?]

theorem perm_hostsOf (name : NodeName) : (g'.nodes.hostsOf name).Perm (g.nodes.hostsOf name) := by
  refine (List.perm_ext_iff_of_nodup (h.wellFormed'.nodup_hostsOf name)
    (h.wellFormed.nodup_hostsOf name)).mpr fun gid => ?_
  rw [h.wellFormed'.mem_hostsOf_iff, h.wellFormed.mem_hostsOf_iff, h.hostedNames]

theorem nodeNames : g'.nodeNames = g.nodeNames := by
  have hcounts : (g'.nodes.hosts.map fun _ gids => gids.length) =
      g.nodes.hosts.map fun _ gids => gids.length := by
    apply ExtTreeMap.ext_getElem?
    intro name
    have hperm := h.perm_hostsOf name
    rw [ExtTreeMap.getElem?_map, ExtTreeMap.getElem?_map, h.wellFormed'.arena.getElem?_hosts,
      h.wellFormed.arena.getElem?_hosts]
    by_cases hnil : g.nodes.hostsOf name = []
    · rw [if_pos hnil, if_pos (hnil ▸ hperm).eq_nil]
    · rw [if_neg hnil, if_neg fun hnil' => hnil (hnil' ▸ hperm).symm.eq_nil, Option.map_some,
        Option.map_some, hperm.length_eq]
  rw [h.wellFormed'.nodeNames_eq, h.wellFormed.nodeNames_eq, hcounts]

/-- No query but one shows more than the content. The names with enclaves show the order among
nodes of one name. -/
theorem ask {query : Query} (hquery : query ≠ .nodeNamesWithEnclaves) :
    g'.ask query = g.ask query := by
  cases query with
  | endpoint id =>
    simp only [Graph.ask, h.wellFormed'.facts_endpoint?, h.wellFormed.facts_endpoint?,
      h.topicAndType?, h.home?]
  | endpointCount kind topic => simp only [Graph.ask, endpointCount_eq, h.placedEndpoints]
  | nodeNames => simp only [Graph.ask, h.nodeNames]
  | nodeNamesWithEnclaves => exact absurd rfl hquery
  | nodeCount =>
    simp only [Graph.ask, h.wellFormed'.nodeCount_eq, h.wellFormed.nodeCount_eq, h.nodeNames]
  | pendingCount =>
    have hsize : ∀ g : Graph, g.pendingCount = g.awaited.size := fun g => ExtTreeMap.size_map.symm
    simp only [Graph.ask, hsize, h.awaited]
  | snapshot gid => simp only [Graph.ask, h.snapshot?]
  | namesAndTypes demangleTopic demangleType =>
    refine congrArg Reply.topics (NamesAndTypes.ofEndpoints_congr fun topic type => ?_)
    simp only [exists_mem_endpoints_iff, h.topicAndType?]
  | namesAndTypesByNode kind node demangleTopic demangleType =>
    -- Nodes of one name may come in another order, which a set of pairs does not show.
    refine congrArg Reply.topics (NamesAndTypes.ofEndpoints_congr fun topic type => ?_)
    simp only [h.wellFormed'.exists_mem_byNode_iff, h.wellFormed.exists_mem_byNode_iff, h.home?,
      h.topicAndType?]
  | infoByTopic kind topic demangleType =>
    simp only [Graph.ask, infoByTopic_eq, h.placedEndpoints]
  | prefs => simp only [Graph.ask, h.prefs]
  | dump => simp only [Graph.ask, dump, dumpLines_eq, h.states, h.placedEndpoints]

end SameContent

/-- No query shows more than the content and the order among nodes of one name. -/
theorem Alike.ask (h : Alike g g') (query : Query) : g'.ask query = g.ask query := by
  by_cases hquery : query = .nodeNamesWithEnclaves
  · subst hquery
    have hhosts := h.wellFormed.arena.hosts_congr h.wellFormed'.arena h.hostsOf
    simp only [Graph.ask, h.wellFormed'.nodeNamesWithEnclaves_eq,
      h.wellFormed.nodeNamesWithEnclaves_eq, hhosts, h.enclave?]
  · exact h.toSameContent.ask hquery

end Graph

end DiscoveryGraph
