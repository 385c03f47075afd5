import DiscoveryGraph.Proofs.Listing
import DiscoveryGraph.Proofs.Settle

/-!
# What a merge arrives at

The steps of a merge put together. A merge creates the participant if need be, removes the nodes
that the snapshot does not list, and then brings the listed nodes into line one after the other.
`Snapshot.place` says what a stretch of these nodes makes of the place of one endpoint; it composes
along the stretch (`Snapshot.place_append`), so that the last word on an early node is not lost
when later nodes take endpoints.

* `merged_foldl`: the nodes of the snapshot, in any stretch of them, are brought into line.
* `converged_run`: the whole merge, for every participant and every endpoint.
-/

namespace DiscoveryGraph

open DiscoveryGraph.Graph

/-! ## Places -/

/-- What bringing the nodes `names` of a snapshot into line makes of the place of an endpoint. One
that is owned by such a node and is `ready` goes there, any other leaves these nodes. -/
def Snapshot.place (snapshot : Snapshot) (names : List NodeName) (ready : Prop) [Decidable ready]
    (id : EndpointId) (before : Option NodeAddress) : Option NodeAddress :=
  if ready ∧ (snapshot.owner? id).any (· ∈ names) then
    (snapshot.owner? id).map (⟨snapshot.gid, ·⟩)
  else before.filter fun address => ¬ (address.participant = snapshot.gid ∧ address.name ∈ names)

namespace Snapshot

variable {snapshot : Snapshot} {ready : Prop} [Decidable ready] {id : EndpointId}
  {before : Option NodeAddress}

@[simp]
theorem place_nil : snapshot.place [] ready id before = before := by
  cases before <;> simp [place]

theorem place_singleton (name : NodeName) :
    snapshot.place [name] ready id before =
      if ready ∧ snapshot.owner? id = some name then some ⟨snapshot.gid, name⟩
      else before.filter (· ≠ ⟨snapshot.gid, name⟩) := by
  have hmem : (snapshot.owner? id).any (· ∈ [name]) ↔ snapshot.owner? id = some name := by
    cases snapshot.owner? id <;> simp
  simp only [place, hmem]
  split
  · rename_i htaken
    rw [htaken.2]
    rfl
  · congr 1
    funext address
    rw [Bool.eq_iff_iff]
    simp [NodeAddress.ext_iff, ← not_and_or]

/-- A stretch of nodes has the same effect as its parts, one after the other. -/
theorem place_append (names more : List NodeName) :
    snapshot.place (names ++ more) ready id before =
      snapshot.place more ready id (snapshot.place names ready id before) := by
  have hany : (snapshot.owner? id).any (· ∈ names ++ more) =
      ((snapshot.owner? id).any (· ∈ names) || (snapshot.owner? id).any (· ∈ more)) := by
    cases snapshot.owner? id <;> simp
  unfold place
  by_cases hlater : ready ∧ (snapshot.owner? id).any (· ∈ more)
  · rw [if_pos hlater, if_pos ⟨hlater.1, by rw [hany, hlater.2, Bool.or_true]⟩]
  · rw [if_neg hlater]
    by_cases hearlier : ready ∧ (snapshot.owner? id).any (· ∈ names)
    · -- Its node is among the earlier ones, and the later ones leave it there.
      rw [if_pos hearlier, if_pos ⟨hearlier.1, by rw [hany, hearlier.2, Bool.true_or]⟩]
      cases howner : snapshot.owner? id with
      | none => rfl
      | some name =>
        have hmore : name ∉ more := fun hmem => hlater ⟨hearlier.1, by simp [howner, hmem]⟩
        simp [hmore, Option.filter_some]
    · rw [if_neg hearlier, if_neg (by rw [hany, Bool.or_eq_true]; tauto), Option.filter_filter]
      congr 1
      grind

end Snapshot

/-- How many changes a merge has counted. -/
def Summary.total (summary : Summary) : Nat :=
  summary.participantCreated.toNat + summary.nodesAdded + summary.nodesRemoved +
    summary.associationsAdded + summary.associationsRemoved + summary.deferred

theorem Summary.eq_none_of_total {summary : Summary} (h : summary.total = 0) :
    summary = .none := by
  obtain ⟨created, added, removed, joined, left, deferred⟩ := summary
  simp only [total] at h
  have hcreated : created = false := by
    cases created with
    | false => rfl
    | true => simp at h
  subst hcreated
  simp only [Bool.toNat_false] at h
  simp only [none, mk.injEq, true_and]
  omega

namespace Merge

variable {m m' m'' : Merge} {snapshot : Snapshot} {id : EndpointId} {key : NodeKey} {gid : Gid}
  {name : NodeName} {names more : List NodeName}

/-! ## Bringing listed nodes into line -/

/-- What bringing the nodes `names` of a snapshot into line does. -/
structure Merged (snapshot : Snapshot) (names : List NodeName) (m m' : Merge) : Prop where
  wellFormed : m'.graph.WellFormed
  keeps : Keeps m.graph m'.graph
  enclave? : ∀ owner, m'.graph.enclave? owner = m.graph.enclave? owner
  hostedNames : ∀ owner, m'.graph.hostedNames owner =
    if owner = snapshot.gid then
      m.graph.hostedNames owner ++ names.filter (· ∉ m.graph.hostedNames owner)
    else m.graph.hostedNames owner
  home? : ∀ id, m'.graph.home? id =
    snapshot.place names (id ∈ m.graph.endpoints) id (m.graph.home? id)
  awaiting? : ∀ id, m'.graph.awaiting? id =
    snapshot.place names (m.graph.MayWait id) id (m.graph.awaiting? id)
  total_le : m.summary.total ≤ m'.summary.total

namespace Merged

theorem refl (h : m.graph.WellFormed) : Merged snapshot [] m m where
  wellFormed := h
  keeps := .refl _
  enclave? _ := rfl
  hostedNames owner := by simp
  home? id := by simp
  awaiting? id := by simp
  total_le := le_rfl

theorem trans (h : Merged snapshot names m m') (h' : Merged snapshot more m' m'')
    (hdisjoint : ∀ name ∈ more, name ∉ names) : Merged snapshot (names ++ more) m m'' where
  wellFormed := h'.wellFormed
  keeps := h.keeps.trans h'.keeps
  enclave? owner := (h'.enclave? owner).trans (h.enclave? owner)
  hostedNames owner := by
    rw [h'.hostedNames, h.hostedNames]
    split
    · rw [List.append_assoc, List.filter_append]
      congr 2
      refine List.filter_congr fun name hname => ?_
      simp [hdisjoint name hname]
    · rfl
  home? id := by
    simp only [h'.home?, h.home?, h.keeps.mem_endpoints, Snapshot.place_append]
  awaiting? id := by
    simp only [h'.awaiting?, h.awaiting?, h.keeps.mayWait, Snapshot.place_append]
  total_le := h.total_le.trans h'.total_le

end Merged

/-- What making sure that a node exists does. -/
structure Ensured (gid : Gid) (name : NodeName) (m : Merge) (key : NodeKey) (m' : Merge) :
    Prop where
  wellFormed : m'.graph.WellFormed
  address? : m'.graph.nodes.address? key = some ⟨gid, name⟩
  keeps : Keeps m.graph m'.graph
  enclave? : ∀ owner, m'.graph.enclave? owner = m.graph.enclave? owner
  hostedNames : ∀ owner, m'.graph.hostedNames owner =
    if owner = gid ∧ name ∉ m.graph.hostedNames owner then m.graph.hostedNames owner ++ [name]
    else m.graph.hostedNames owner
  home? : ∀ id, m'.graph.home? id = m.graph.home? id
  awaiting? : ∀ id, m'.graph.awaiting? id = m.graph.awaiting? id
  summary : m'.summary =
    if name ∈ m.graph.hostedNames gid then m.summary
    else { m.summary with nodesAdded := m.summary.nodesAdded + 1 }

theorem ensured_ensureNode (h : m.graph.WellFormed) (hgid : gid ∈ m.graph.participants)
    (name : NodeName) :
    Ensured gid name m (m.ensureNode gid name).1 (m.ensureNode gid name).2 := by
  unfold ensureNode
  cases hfind : m.graph.nodes.find? gid name with
  | some key =>
    have hhosts : name ∈ m.graph.hostedNames gid := h.isSome_find?_iff.mp (by simp [hfind])
    exact {
      wellFormed := h
      address? := h.find?_eq_some_iff.mp hfind
      keeps := .refl _
      enclave? := fun _ => rfl
      hostedNames := by
        intro owner
        rw [if_neg]
        rintro ⟨rfl, hlacks⟩
        exact hlacks hhosts
      home? := fun _ => rfl
      awaiting? := fun _ => rfl
      summary := (if_pos hhosts).symm }
  | none =>
    have hlacks : name ∉ m.graph.hostedNames gid := by
      rw [← h.isSome_find?_iff, hfind]
      simp
    exact {
      wellFormed := h.insertNode hgid hfind
      address? := by
        rw [address?_insertNode]
        simp
      keeps := keeps_insertNode ..
      enclave? := enclave?_insertNode _ _ _
      hostedNames := by
        intro owner
        rw [h.hostedNames_insertNode hgid]
        by_cases howner : owner = gid
        · subst howner
          simp [hlacks]
        · simp [howner, Ne.symm howner]
      home? := fun _ => h.home?_insertNode
      awaiting? := fun _ => h.awaiting?_insertNode
      summary := (if_neg hlacks).symm }

/-- A node that the participant hosts is left alone. -/
theorem ensureNode_of_mem (h : m.graph.WellFormed) (hname : name ∈ m.graph.hostedNames gid) :
    (m.ensureNode gid name).2 = m := by
  obtain ⟨key, hfind⟩ := Option.isSome_iff_exists.mp (h.isSome_find?_iff.mpr hname)
  rw [ensureNode, hfind]

section Places

variable (h : m.graph.WellFormed) {address : NodeAddress}
  (hkey : m.graph.nodes.address? key = some address)
include h hkey

/-- What refers to slots gets its place at a node, or leaves this node. -/
theorem bind_address?_ite {slot : Option NodeKey} {taken : Prop} [Decidable taken] :
    (if taken then some key else if slot = some key then none else slot).bind
        m.graph.nodes.address? =
      if taken then some address
      else (slot.bind m.graph.nodes.address?).filter (· ≠ address) := by
  split
  · exact hkey
  · cases slot with
    | none => rfl
    | some other =>
      by_cases hother : other = key
      · simp [hother, hkey, Option.filter_some]
      · have helsewhere : m.graph.nodes.address? other ≠ some address :=
          fun haddress => hother (h.address?_inj _ _ _ haddress hkey)
        cases haddress : m.graph.nodes.address? other with
        | none => simp [hother, haddress]
        | some place =>
          have : place ≠ address := fun heq => helsewhere (heq ▸ haddress)
          simp [hother, haddress, this, Option.filter_some]

variable {wanted : Std.ExtTreeSet EndpointId} (hs : Settled key wanted m m')
include hs

theorem Settled.home? (id : EndpointId) : m'.graph.home? id =
    if id ∈ wanted ∧ id ∈ m.graph.endpoints then some address
    else (m.graph.home? id).filter (· ≠ address) := by
  rw [Graph.home?, hs.link?, funext hs.rewired.address?]
  exact bind_address?_ite h hkey

theorem Settled.awaiting? (id : EndpointId) : m'.graph.awaiting? id =
    if id ∈ wanted ∧ m.graph.MayWait id then some address
    else (m.graph.awaiting? id).filter (· ≠ address) := by
  rw [Graph.awaiting?, hs.pending, funext hs.rewired.address?]
  exact bind_address?_ite h hkey

end Places

theorem settled_mergeNode (h : m.graph.WellFormed) (hgid : snapshot.gid ∈ m.graph.participants)
    (entry : NodeEntities) :
    Settled (m.ensureNode snapshot.gid entry.node).1
      (Std.ExtTreeSet.ofList (snapshot.owned entry)) (m.ensureNode snapshot.gid entry.node).2
      (mergeNode snapshot m entry) :=
  have he := ensured_ensureNode h hgid entry.node
  settled_settle he.wellFormed he.address?

theorem mem_participants_mergeNode (h : m.graph.WellFormed)
    (hgid : snapshot.gid ∈ m.graph.participants) (entry : NodeEntities) :
    snapshot.gid ∈ (mergeNode snapshot m entry).graph.participants := by
  have he := ensured_ensureNode h hgid entry.node
  have hs := settled_mergeNode h hgid entry
  rw [hs.rewired.participants, mem_participants_iff, he.enclave?, ← mem_participants_iff]
  exact hgid

theorem merged_mergeNode (h : m.graph.WellFormed) (hgid : snapshot.gid ∈ m.graph.participants)
    (hnodup : snapshot.names.Nodup) {entry : NodeEntities} (hentry : entry ∈ snapshot.nodes) :
    Merged snapshot [entry.node] m (mergeNode snapshot m entry) := by
  have he := ensured_ensureNode h hgid entry.node
  have hs := settled_mergeNode h hgid entry
  have hwanted := Snapshot.mem_ofList_owned_iff hnodup hentry
  exact {
    wellFormed := hs.wellFormed
    keeps := he.keeps.trans hs.rewired.toKeeps
    enclave? := fun owner => (hs.rewired.enclave? owner).trans (he.enclave? owner)
    hostedNames := by
      intro owner
      rw [hs.rewired.hostedNames, he.hostedNames]
      by_cases howner : owner = snapshot.gid
      · subst howner
        by_cases hhosts : entry.node ∈ m.graph.hostedNames snapshot.gid <;> simp [hhosts]
      · simp [howner]
    home? := by
      intro id
      simp only [hs.home? he.wellFormed he.address?, he.home?, he.keeps.mem_endpoints, hwanted,
        Snapshot.place_singleton, and_comm]
    awaiting? := by
      intro id
      simp only [hs.awaiting? he.wellFormed he.address?, he.awaiting?, he.keeps.mayWait, hwanted,
        Snapshot.place_singleton, and_comm]
    total_le := by
      have hensured : m.summary.total ≤ (m.ensureNode snapshot.gid entry.node).2.summary.total := by
        rw [he.summary]
        split
        · exact le_rfl
        · simp only [Summary.total]
          omega
      have hsettled := congrArg Summary.total hs.summary
      simp only [Summary.total] at hensured hsettled ⊢
      omega }

theorem merged_foldl (h : m.graph.WellFormed) (hgid : snapshot.gid ∈ m.graph.participants)
    (hnodup : snapshot.names.Nodup) (entries : List NodeEntities)
    (hentries : entries.Sublist snapshot.nodes) :
    Merged snapshot (entries.map (·.node)) m (entries.foldl (mergeNode snapshot) m) := by
  induction entries generalizing m with
  | nil => exact .refl h
  | cons entry entries ih =>
    have hfirst := merged_mergeNode h hgid hnodup (hentries.subset List.mem_cons_self)
    have hrest := ih hfirst.wellFormed (by
      rw [mem_participants_iff, hfirst.enclave?, ← mem_participants_iff]
      exact hgid) ((List.sublist_cons_self _ _).trans hentries)
    refine hfirst.trans hrest ?_
    intro name hname hmem
    have hdistinct : ((entry :: entries).map (·.node)).Nodup := (hentries.map _).nodup hnodup
    rw [List.mem_singleton.mp hmem] at hname
    exact (List.nodup_cons.mp hdistinct).1 hname

/-! ## Removing unlisted nodes -/

theorem mem_staleKeys_iff {g : Graph} (h : g.WellFormed) :
    key ∈ staleKeys g gid names ↔
      ∃ name, g.nodes.address? key = some ⟨gid, name⟩ ∧ name ∉ names := by
  have hhosted : (g.participants[gid]?.map (·.nodes)).getD [] = g.hosted gid := rfl
  rw [staleKeys, hhosted, List.mem_filter, h.mem_hosted_iff]
  constructor
  · rintro ⟨⟨name, haddress⟩, hstale⟩
    obtain ⟨node, hnode, hname⟩ := NodeArena.address?_eq_some_iff.mp haddress
    cases hname
    refine ⟨node.name, haddress, ?_⟩
    simpa [hnode] using hstale
  · rintro ⟨name, haddress, hstale⟩
    obtain ⟨node, hnode, hname⟩ := NodeArena.address?_eq_some_iff.mp haddress
    cases hname
    exact ⟨⟨node.name, haddress⟩, by simpa [hnode] using hstale⟩

/-- A node that is there is removed exactly if it is one of the participant's and not listed. -/
theorem mem_staleKeys_iff_address {g : Graph} (h : g.WellFormed) {address : NodeAddress}
    (haddress : g.nodes.address? key = some address) :
    key ∈ staleKeys g gid names ↔ address.participant = gid ∧ address.name ∉ names := by
  rw [mem_staleKeys_iff h, haddress]
  constructor
  · rintro ⟨name, heq, hname⟩
    cases heq
    exact ⟨rfl, hname⟩
  · rintro ⟨rfl, hname⟩
    exact ⟨address.name, rfl, hname⟩

theorem participant_of_mem_staleKeys {g : Graph} (h : g.WellFormed)
    (hkey : key ∈ staleKeys g gid names) (address : NodeAddress)
    (haddress : g.nodes.address? key = some address) : address.participant = gid :=
  ((mem_staleKeys_iff_address h haddress).mp hkey).1

theorem graph_foldl_removeNode (gid : Gid) (keys : List NodeKey) (m : Merge) :
    (keys.foldl (removeNode gid) m).graph = keys.foldl (Graph.removeNodeAt · gid) m.graph := by
  induction keys generalizing m with
  | nil => rfl
  | cons key keys ih => exact ih _

theorem summary_foldl_removeNode (gid : Gid) (keys : List NodeKey) (m : Merge) :
    (keys.foldl (removeNode gid) m).summary =
      { m.summary with nodesRemoved := m.summary.nodesRemoved + keys.length } := by
  induction keys generalizing m with
  | nil => rfl
  | cons key keys ih =>
    rw [List.foldl_cons, ih]
    simp only [removeNode, List.length_cons]
    congr 1
    omega

theorem summary_removeStale (m : Merge) (gid : Gid) (names : List NodeName) :
    (m.removeStale gid names).summary = { m.summary with
      nodesRemoved := m.summary.nodesRemoved + (staleKeys m.graph gid names).length } :=
  summary_foldl_removeNode gid _ m

/-- What removing the nodes of a participant other than `names` does. -/
structure Pruned (gid : Gid) (names : List NodeName) (m m' : Merge) : Prop where
  wellFormed : m'.graph.WellFormed
  keeps : Keeps m.graph m'.graph
  enclave? : ∀ owner, m'.graph.enclave? owner = m.graph.enclave? owner
  hostedNames : ∀ owner, m'.graph.hostedNames owner =
    if owner = gid then (m.graph.hostedNames owner).filter (· ∈ names)
    else m.graph.hostedNames owner
  home? : ∀ id, m'.graph.home? id = (m.graph.home? id).filter fun address =>
    ¬ (address.participant = gid ∧ address.name ∉ names)
  awaiting? : ∀ id, m'.graph.awaiting? id = (m.graph.awaiting? id).filter fun address =>
    ¬ (address.participant = gid ∧ address.name ∉ names)

theorem pruned_removeStale (h : m.graph.WellFormed) (gid : Gid) (names : List NodeName) :
    Pruned gid names m (m.removeStale gid names) := by
  have hgone : ∀ key address, m.graph.nodes.address? key = some address →
      (key ∈ staleKeys m.graph gid names ↔ address.participant = gid ∧ address.name ∉ names) :=
    fun _ _ => mem_staleKeys_iff_address h
  obtain ⟨hwf, hv, henclave, hhosted⟩ :=
    h.foldl_removeNodeAt gid (staleKeys m.graph gid names)
      fun _ => participant_of_mem_staleKeys h
  have hgraph : (m.removeStale gid names).graph =
      (staleKeys m.graph gid names).foldl (Graph.removeNodeAt · gid) m.graph :=
    graph_foldl_removeNode ..
  rw [← hgraph] at hwf hv henclave hhosted
  exact {
    wellFormed := hwf
    keeps := hv.toKeeps
    enclave? := henclave
    hostedNames := by
      intro owner
      rw [h.hostedNames_vacate hv hgone hhosted]
      by_cases howner : owner = gid <;> simp [howner]
    home? := hv.home? hgone
    awaiting? := hv.awaiting? hgone }

/-! ## The whole merge -/

/-- What becomes of a graph when a snapshot is merged into it. -/
structure Converged (g : Graph) (snapshot : Snapshot) (g' : Graph) : Prop where
  wellFormed : g'.WellFormed
  keeps : Keeps g g'
  enclave? : ∀ owner, g'.enclave? owner =
    if owner = snapshot.gid then some ((g.enclave? owner).getD "") else g.enclave? owner
  hostedNames : ∀ owner, g'.hostedNames owner =
    if owner = snapshot.gid then
      (g.hostedNames owner).filter (· ∈ snapshot.names) ++
        snapshot.names.filter (· ∉ g.hostedNames owner)
    else g.hostedNames owner
  home? : ∀ id, g'.home? id =
    if id ∈ g.endpoints ∧ (snapshot.owner? id).isSome then
      (snapshot.owner? id).map (⟨snapshot.gid, ·⟩)
    else (g.home? id).filter (·.participant ≠ snapshot.gid)
  awaiting? : ∀ id, g'.awaiting? id =
    if g.MayWait id ∧ (snapshot.owner? id).isSome then
      (snapshot.owner? id).map (⟨snapshot.gid, ·⟩)
    else (g.awaiting? id).filter (·.participant ≠ snapshot.gid)

/-- What is at a node of the participant in the end is what the snapshot lists first there. -/
theorem ite_owner?_eq_some_iff {ready : Prop} [Decidable ready] {before : Option NodeAddress} :
    (if ready ∧ (snapshot.owner? id).isSome then (snapshot.owner? id).map (⟨snapshot.gid, ·⟩)
      else before.filter (·.participant ≠ snapshot.gid)) = some ⟨snapshot.gid, name⟩ ↔
      snapshot.owner? id = some name ∧ ready := by
  split
  · rename_i htaken
    simp [htaken.1]
  · rename_i hfree
    constructor
    · intro hplace
      have helsewhere := (Option.filter_eq_some_iff.mp hplace).2
      simp at helsewhere
    · rintro ⟨howner, hready⟩
      exact absurd ⟨hready, by simp [howner]⟩ hfree

theorem Converged.home?_eq_some_iff {g g' : Graph} (h : Converged g snapshot g') :
    g'.home? id = some ⟨snapshot.gid, name⟩ ↔
      snapshot.owner? id = some name ∧ id ∈ g.endpoints := by
  rw [h.home?, ite_owner?_eq_some_iff]

theorem Converged.awaiting?_eq_some_iff {g g' : Graph} (h : Converged g snapshot g') :
    g'.awaiting? id = some ⟨snapshot.gid, name⟩ ↔
      snapshot.owner? id = some name ∧ g.MayWait id := by
  rw [h.awaiting?, ite_owner?_eq_some_iff]

/-- What making sure that a participant exists does. -/
structure Registered (gid : Gid) (m m' : Merge) : Prop where
  wellFormed : m'.graph.WellFormed
  keeps : Keeps m.graph m'.graph
  enclave? : ∀ owner, m'.graph.enclave? owner =
    if owner = gid then some ((m.graph.enclave? owner).getD "") else m.graph.enclave? owner
  hostedNames : ∀ owner, m'.graph.hostedNames owner = m.graph.hostedNames owner
  home? : ∀ id, m'.graph.home? id = m.graph.home? id
  awaiting? : ∀ id, m'.graph.awaiting? id = m.graph.awaiting? id

theorem registered_ensureParticipant (h : m.graph.WellFormed) (gid : Gid) :
    Registered gid m (m.ensureParticipant gid) := by
  unfold ensureParticipant
  by_cases hgid : gid ∈ m.graph.participants
  · rw [if_pos hgid]
    exact {
      wellFormed := h
      keeps := .refl _
      enclave? := by
        intro owner
        split
        · rename_i howner
          obtain ⟨enclave, henclave⟩ :=
            Option.isSome_iff_exists.mp (mem_participants_iff.mp (howner ▸ hgid))
          simp [henclave]
        · rfl
      hostedNames := fun _ => rfl
      home? := fun _ => rfl
      awaiting? := fun _ => rfl }
  · rw [if_neg hgid]
    exact {
      wellFormed := h.insertParticipant hgid ""
      keeps := ⟨fun _ => rfl, rfl, rfl⟩
      enclave? := by
        intro owner
        rw [enclave?_insertParticipant]
        by_cases howner : owner = gid
        · have hnone : m.graph.enclave? gid = none := by
            rw [mem_participants_iff] at hgid
            simpa using hgid
          simp [howner, hnone]
        · simp [howner, Ne.symm howner]
      hostedNames := by
        intro owner
        rw [Graph.hostedNames, hosted_insertParticipant hgid]
        rfl
      home? := fun _ => rfl
      awaiting? := fun _ => rfl }

/-- The nodes of the snapshot take what they own, and the participant has no other nodes. -/
theorem place_names (ready : Prop) [Decidable ready] (before : Option NodeAddress) :
    snapshot.place snapshot.names ready id
        (before.filter fun address =>
          ¬ (address.participant = snapshot.gid ∧ address.name ∉ snapshot.names)) =
      if ready ∧ (snapshot.owner? id).isSome then (snapshot.owner? id).map (⟨snapshot.gid, ·⟩)
      else before.filter (·.participant ≠ snapshot.gid) := by
  have hany : (snapshot.owner? id).any (· ∈ snapshot.names) ↔ (snapshot.owner? id).isSome := by
    cases howner : snapshot.owner? id with
    | none => simp
    | some name => simp [Snapshot.mem_names_of_owner? howner]
  simp only [Snapshot.place, hany]
  congr 1
  cases before with
  | none => rfl
  | some address =>
    by_cases hgid : address.participant = snapshot.gid <;>
      by_cases hname : address.name ∈ snapshot.names <;>
        simp [Option.filter_some, hgid, hname]

theorem converged_run {g : Graph} (h : g.WellFormed) (hnodup : snapshot.names.Nodup) :
    Converged g snapshot (run g snapshot).graph := by
  let start : Merge := { graph := g, summary := .none, events := [] }
  have hregistered : Registered snapshot.gid start (start.ensureParticipant snapshot.gid) :=
    registered_ensureParticipant h snapshot.gid
  have hpruned := pruned_removeStale hregistered.wellFormed snapshot.gid snapshot.names
  have hmerged : Merged snapshot snapshot.names
      ((start.ensureParticipant snapshot.gid).removeStale snapshot.gid snapshot.names)
      (run g snapshot) := by
    refine merged_foldl hpruned.wellFormed ?_ hnodup snapshot.nodes (.refl _)
    rw [mem_participants_iff, hpruned.enclave?, hregistered.enclave?]
    simp
  have hkeeps := hregistered.keeps.trans hpruned.keeps
  exact {
    wellFormed := hmerged.wellFormed
    keeps := hkeeps.trans hmerged.keeps
    enclave? := fun owner => by
      rw [hmerged.enclave?, hpruned.enclave?, hregistered.enclave?]
    hostedNames := by
      intro owner
      rw [hmerged.hostedNames, hpruned.hostedNames, hregistered.hostedNames]
      split
      · congr 1
        refine List.filter_congr fun name hname => ?_
        simp [List.mem_filter, hname, start]
      · rfl
    home? := by
      intro id
      simp only [hmerged.home?, hpruned.home?, hregistered.home?, hkeeps.mem_endpoints]
      exact place_names (id ∈ g.endpoints) (g.home? id)
    awaiting? := by
      intro id
      simp only [hmerged.awaiting?, hpruned.awaiting?, hregistered.awaiting?, hkeeps.mayWait]
      exact place_names (g.MayWait id) (g.awaiting? id) }

end Merge

end DiscoveryGraph
