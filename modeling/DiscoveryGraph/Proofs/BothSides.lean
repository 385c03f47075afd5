import DiscoveryGraph.Proofs.Alike
import DiscoveryGraph.Proofs.Requests

/-!
# Associations seen from both sides

An association is written down at the endpoint, as a link to the slot of its node, and at the node,
as an entry of the sets that it lists. Some views read the one side and some the other: the topics
at a node and the total state of a participant start from the nodes, what is known of an endpoint
and the endpoints on a topic start from the endpoints. Both sides come to the address at which an
endpoint is at home (`home?`), so that the views agree.

* `belongsTo_iff`, `mem_listers_iff`: either side in terms of addresses.
* `both_sides_agree`: the views of every reachable graph.
-/

namespace DiscoveryGraph.Graph

open Std (ExtTreeMap)

/-- The endpoint links to a node that is there and is called `name`, under whichever
participant. -/
def BelongsTo (g : Graph) (endpoint : Endpoint) (name : NodeName) : Prop :=
  ∃ key node, endpoint.link = some key ∧ g.nodes.get? key = some node ∧ node.name = name

/-- The nodes under which the total state of a participant lists an endpoint in the list of its
kind. There are none if the participant is unknown. -/
def listers (g : Graph) (gid : Gid) (id : EndpointId) : List NodeName :=
  ((g.snapshot? gid).map fun state =>
    (state.nodes.filter fun entry => id.gid ∈ entry.listed id.kind).map (·.node)).getD []

/-- The participant `gid` and no other lists the endpoint, under the node called `name` and no
other. -/
def ListedOnce (g : Graph) (id : EndpointId) (gid : Gid) (name : NodeName) : Prop :=
  g.listers gid id = [name] ∧ ∀ other, other ≠ gid → g.listers other id = []

variable {g : Graph} {id : EndpointId} {endpoint : Endpoint} {gid : Gid} {name : NodeName}
  {kind : EndpointKind}

/-! ## From the endpoints -/

theorem link?_eq_link (hid : g.endpoint? id = some endpoint) : g.link? id = endpoint.link := by
  rw [link?, ← endpoint?, hid, Option.bind_some]

theorem home?_eq_bind (hid : g.endpoint? id = some endpoint) :
    g.home? id = endpoint.link.bind g.nodes.address? := by
  rw [home?, link?_eq_link hid]

theorem belongsTo_iff (hid : g.endpoint? id = some endpoint) :
    g.BelongsTo endpoint name ↔ ∃ address, g.home? id = some address ∧ address.name = name := by
  rw [home?_eq_bind hid]
  simp only [Option.bind_eq_some_iff, NodeArena.address?_eq_some_iff]
  constructor
  · rintro ⟨key, node, hlink, hnode, hname⟩
    exact ⟨node.address, ⟨key, hlink, node, hnode, rfl⟩, hname⟩
  · rintro ⟨_, ⟨key, hlink, node, hnode, rfl⟩, hname⟩
    exact ⟨key, node, hlink, hnode, hname⟩

theorem WellFormed.isAssociated_iff (h : g.WellFormed) (hid : g.endpoint? id = some endpoint) :
    endpoint.isAssociated = true ↔ ∃ address, g.home? id = some address := by
  rw [Endpoint.isAssociated, ← link?_eq_link hid, ← Option.isSome_iff_exists,
    ← Option.ne_none_iff_isSome, ← Option.ne_none_iff_isSome, ne_eq, ne_eq, h.link?_eq_none_iff]

/-- Among the endpoints on its topic, an endpoint occurs once. -/
theorem filter_endpointsOn (hid : g.endpoint? id = some endpoint) :
    (g.endpointsOn id.kind endpoint.topic).filter (·.1 = id) = [(id, endpoint)] := by
  have hnodup := (g.nodup_endpointsOn id.kind endpoint.topic).of_map
  refine List.perm_singleton.mp ((List.perm_ext_iff_of_nodup (hnodup.filter _)
    (List.nodup_singleton _)).mpr fun entry => ?_)
  rw [List.mem_filter, mem_endpointsOn_iff, decide_eq_true_eq, List.mem_singleton]
  constructor
  · rintro ⟨⟨hentry, -, -⟩, rfl⟩
    exact Prod.ext rfl (Option.some.inj (hentry.symm.trans hid))
  · rintro rfl
    exact ⟨⟨hid, rfl, rfl⟩, rfl⟩

/-- The endpoints on its topic report an endpoint once, with the name of the node at which it is
at home. -/
theorem filter_infoByTopic (hid : g.endpoint? id = some endpoint) (demangleType : Demangler) :
    (g.infoByTopic id.kind endpoint.topic demangleType).filter (·.id = id) =
      [{ node := ((g.home? id).map (·.name)).getD .unknown
         type := demangleType endpoint.type
         id := id }] := by
  rw [infoByTopic, List.filter_map, home?_eq_bind hid, ← g.ownerName_eq]
  exact congrArg _ (filter_endpointsOn hid)

/-! ## From the nodes -/

namespace WellFormed

variable (h : g.WellFormed)
include h

theorem mem_listers_iff : name ∈ g.listers gid id ↔ g.home? id = some ⟨gid, name⟩ := by
  cases hstate : g.snapshot? gid with
  | none =>
    have hlisters : g.listers gid id = [] := by rw [listers, hstate]; rfl
    rw [hlisters]
    refine ⟨fun hname => absurd hname List.not_mem_nil, fun hhome => ?_⟩
    obtain ⟨key, -, haddress⟩ := Option.bind_eq_some_iff.mp hhome
    have hgid := isSome_snapshot?_iff.mpr (h.mem_participants_of_address? haddress)
    rw [hstate] at hgid
    cases hgid
  | some state =>
    simp only [listers, hstate, Option.map_some, Option.getD_some, List.mem_map, List.mem_filter,
      decide_eq_true_eq]
    constructor
    · rintro ⟨entry, ⟨hentry, hgid⟩, rfl⟩
      exact ((h.listed_snapshot? hstate hentry id.kind).2 id.gid).mp hgid
    · intro hhome
      have howner := (h.owner?_snapshot? hstate).mpr hhome
      obtain ⟨entry, hentry, rfl, -⟩ := Snapshot.exists_entry_of_owner? howner
      exact ⟨entry, ⟨hentry, ((h.listed_snapshot? hstate hentry id.kind).2 id.gid).mpr hhome⟩, rfl⟩

/-- The endpoints listed by the nodes called `name` are those that link to one of them. -/
theorem mem_byNode_iff_belongsTo :
    endpoint ∈ ((g.nodes.called name).flatMap fun node =>
        (node.listed kind).filterMap fun gid => g.endpoints[(⟨kind, gid⟩ : EndpointId)]?) ↔
      ∃ id, id.kind = kind ∧ g.endpoint? id = some endpoint ∧ g.BelongsTo endpoint name := by
  rw [h.mem_byNode_iff]
  constructor
  · rintro ⟨gid, address, hid, hhome, hname⟩
    exact ⟨⟨kind, gid⟩, rfl, hid, (belongsTo_iff hid).mpr ⟨address, hhome, hname⟩⟩
  · rintro ⟨⟨_, gid⟩, rfl, hid, hbelongs⟩
    obtain ⟨address, hhome, hname⟩ := (belongsTo_iff hid).mp hbelongs
    exact ⟨gid, address, hid, hhome, hname⟩

/-- The nodes called `name` show the visible topics of the endpoints that link to one of them, with
the types of these. -/
theorem getElem?_namesAndTypesByNode {demangleTopic demangleType : Demangler} {topic : String}
    {types : Std.ExtTreeSet String} :
    (g.namesAndTypesByNode kind name demangleTopic demangleType)[topic]? = some types ↔
      topic ≠ "" ∧ types ≠ ∅ ∧ ∀ type, type ∈ types ↔
        ∃ id endpoint, id.kind = kind ∧ g.endpoint? id = some endpoint ∧
          g.BelongsTo endpoint name ∧ demangleTopic endpoint.topic = topic ∧
            demangleType endpoint.type = type := by
  rw [namesAndTypesByNode, NamesAndTypes.getElem?_ofEndpoints_eq_some_iff]
  simp only [h.mem_byNode_iff_belongsTo]
  refine and_congr_right fun _ => and_congr_right fun _ => forall_congr' fun type =>
    iff_congr Iff.rfl ⟨?_, ?_⟩
  · rintro ⟨endpoint, ⟨id, hkind, hid, hbelongs⟩, hnames⟩
    exact ⟨id, endpoint, hkind, hid, hbelongs, hnames⟩
  · rintro ⟨id, endpoint, hkind, hid, hbelongs, hnames⟩
    exact ⟨endpoint, ⟨id, hkind, hid, hbelongs⟩, hnames⟩

theorem nodup_listers (gid : Gid) (id : EndpointId) : (g.listers gid id).Nodup := by
  cases hstate : g.snapshot? gid with
  | none => simp [listers, hstate]
  | some state =>
    simp only [listers, hstate, Option.map_some, Option.getD_some]
    exact (h.nodup_names_snapshot? hstate).sublist (List.filter_sublist.map _)

theorem listers_eq_nil_iff : g.listers gid id = [] ↔ ∀ name, g.home? id ≠ some ⟨gid, name⟩ := by
  simp only [List.eq_nil_iff_forall_not_mem, h.mem_listers_iff, ne_eq]

/-- A participant that lists an endpoint does so under the one node at which it is at home. -/
theorem listers_eq_singleton_iff : g.listers gid id = [name] ↔ g.home? id = some ⟨gid, name⟩ := by
  rw [← h.mem_listers_iff]
  refine ⟨fun hlisters => hlisters ▸ List.mem_singleton_self name, fun hname => ?_⟩
  refine List.perm_singleton.mp ((List.perm_ext_iff_of_nodup (h.nodup_listers gid id)
    (List.nodup_singleton _)).mpr fun other => ?_)
  rw [List.mem_singleton]
  refine ⟨fun hother => ?_, fun heq => heq ▸ hname⟩
  have hhome := h.mem_listers_iff.mp hname
  rw [h.mem_listers_iff.mp hother] at hhome
  exact congrArg NodeAddress.name (Option.some.inj hhome)

theorem listedOnce_iff : g.ListedOnce id gid name ↔ g.home? id = some ⟨gid, name⟩ := by
  rw [ListedOnce, h.listers_eq_singleton_iff]
  refine and_iff_left_of_imp fun hhome other hother => ?_
  rw [h.listers_eq_nil_iff]
  intro name' hhome'
  rw [hhome, Option.some.injEq, NodeAddress.mk.injEq] at hhome'
  exact hother hhome'.1.symm

end WellFormed

/-! ## Agreement -/

/-- In every reachable graph, the views that start from the nodes agree with those that start from
the endpoints: the topics at the nodes of one name are those of the endpoints that link to such a
node; an endpoint is associated exactly if one participant lists it under one node, which is then
the node that its topic reports; and no participant lists an endpoint that is not associated. -/
theorem both_sides_agree (hg : g.Reachable) :
    (∀ (kind : EndpointKind) (name : NodeName) (demangleTopic demangleType : Demangler)
        (topic : String) (types : Std.ExtTreeSet String),
      (g.namesAndTypesByNode kind name demangleTopic demangleType)[topic]? = some types ↔
        topic ≠ "" ∧ types ≠ ∅ ∧ ∀ type, type ∈ types ↔
          ∃ id endpoint, id.kind = kind ∧ g.endpoint? id = some endpoint ∧
            g.BelongsTo endpoint name ∧ demangleTopic endpoint.topic = topic ∧
              demangleType endpoint.type = type) ∧
    ∀ (id : EndpointId) (endpoint : Endpoint), g.endpoint? id = some endpoint →
      (endpoint.isAssociated = true ↔ ∃ gid name, g.ListedOnce id gid name) ∧
      (∀ gid name, g.ListedOnce id gid name → ∀ demangleType,
        (g.infoByTopic id.kind endpoint.topic demangleType).filter (·.id = id) =
          [{ node := name, type := demangleType endpoint.type, id := id }]) ∧
      (endpoint.isAssociated = false →
        (∀ gid, g.listers gid id = []) ∧ ∀ demangleType,
          (g.infoByTopic id.kind endpoint.topic demangleType).filter (·.id = id) =
            [{ node := .unknown, type := demangleType endpoint.type, id := id }]) := by
  have h := hg.wellFormed
  refine ⟨fun _ _ _ _ _ _ => h.getElem?_namesAndTypesByNode,
    fun id endpoint hid => ⟨?_, ?_, ?_⟩⟩
  · simp only [h.listedOnce_iff, h.isAssociated_iff hid]
    exact ⟨fun ⟨address, haddress⟩ => ⟨_, _, haddress⟩, fun ⟨gid, name, haddress⟩ => ⟨_, haddress⟩⟩
  · intro gid name hlisted demangleType
    rw [filter_infoByTopic hid, h.listedOnce_iff.mp hlisted]
    rfl
  · intro hfree
    have hhome : g.home? id = none := by
      rw [← Option.not_isSome_iff_eq_none, Option.isSome_iff_exists, ← h.isAssociated_iff hid,
        hfree]
      exact Bool.false_ne_true
    refine ⟨fun gid => h.listers_eq_nil_iff.mpr fun name => ?_, fun demangleType => ?_⟩
    · rw [hhome]
      exact nofun
    · rw [filter_infoByTopic hid, hhome]
      rfl

/-- Of two readers on a topic, one belongs to a node whose namesake another participant hosts, and
the other one to no node. -/
theorem both_sides_agree_namesakes :
    let one : Gid := ⟨.replicate gidWidth 1⟩
    let g := (emptyWith .recycle .standard).run
      [.addEndpoint ⟨.reader, .zero⟩ "t" "T", .addEndpoint ⟨.reader, one⟩ "t" "U",
        .reconcile ⟨one, [⟨⟨"/", "a"⟩, [], []⟩]⟩, .reconcile ⟨.zero, [⟨⟨"/", "a"⟩, [.zero], []⟩]⟩]
    (∃ gid name, g.ListedOnce ⟨.reader, .zero⟩ gid name ∧
      (g.infoByTopic .reader "t" fun type => type).filter (·.id = ⟨.reader, .zero⟩) =
        [⟨name, "T", ⟨.reader, .zero⟩⟩]) ∧
      (∀ gid, g.listers gid ⟨.reader, one⟩ = []) ∧
      (g.infoByTopic .reader "t" fun type => type).filter (·.id = ⟨.reader, one⟩) =
        [⟨.unknown, "U", ⟨.reader, one⟩⟩] := by
  intro one g
  have hg : g.Reachable := ⟨_, _, _, rfl⟩
  have hlinked : g.endpoint? ⟨.reader, .zero⟩ = some ⟨"t", "T", some 1⟩ := by
    simp only [g, one]
    decide +kernel
  have hfree : g.endpoint? ⟨.reader, one⟩ = some ⟨"t", "U", none⟩ := by
    simp only [g, one]
    decide +kernel
  obtain ⟨-, hsides⟩ := both_sides_agree hg
  obtain ⟨hlisted, hreported, -⟩ := hsides _ _ hlinked
  obtain ⟨-, -, hunlisted⟩ := hsides _ _ hfree
  obtain ⟨gid, name, honce⟩ := hlisted.mp rfl
  exact ⟨⟨gid, name, honce, hreported gid name honce _⟩, (hunlisted rfl).1, (hunlisted rfl).2 _⟩

end DiscoveryGraph.Graph
