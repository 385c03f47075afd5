import DiscoveryGraph.Proofs.WellFormed

/-!
# Creating and removing nodes

What happens to the views of a graph when a participant or a node is created, and when nodes go
away one after the other. The endpoints of a node that goes away belong to no node afterwards, and
nothing waits on its behalf; all else stays as it was.

`Vacated` states this for a whole list of slots. It composes (`Vacated.trans`), so that removing
the nodes of a participant and removing the nodes that a snapshot does not list are folds of the
same step.
-/

namespace DiscoveryGraph.Graph

variable {g g' g'' : Graph} {id : EndpointId} {key other : NodeKey} {gid : Gid} {name : NodeName}

/-! ## A new participant -/

section InsertParticipant

variable (hgid : gid ∉ g.participants) (enclave : String)

theorem enclave?_insertParticipant (owner : Gid) :
    ({ g with participants := g.participants.insert gid { enclave, nodes := [] } } : Graph).enclave?
      owner = if gid = owner then some enclave else g.enclave? owner := by
  simp only [enclave?, Std.ExtTreeMap.getElem?_insert, Std.LawfulEqCmp.compare_eq_iff_eq]
  split <;> rfl

include hgid

theorem hosted_insertParticipant (owner : Gid) :
    ({ g with participants := g.participants.insert gid { enclave, nodes := [] } } : Graph).hosted
      owner = g.hosted owner := by
  simp only [hosted, Std.ExtTreeMap.getElem?_insert, Std.LawfulEqCmp.compare_eq_iff_eq]
  split
  · rename_i heq
    rw [← heq, Std.ExtTreeMap.getElem?_eq_none hgid]
    rfl
  · rfl

theorem WellFormed.insertParticipant (h : g.WellFormed) :
    ({ g with participants :=
      g.participants.insert gid { enclave, nodes := [] } } : Graph).WellFormed :=
  h.withParticipants (hosted_insertParticipant hgid enclave)

end InsertParticipant

/-! ## A new node -/

section InsertNode

variable (g) (gid) (name)

theorem address?_insertNode :
    (g.insertNode gid name).2.nodes.address? key =
      if (g.insertNode gid name).1 = key then some ⟨gid, name⟩ else g.nodes.address? key :=
  NodeArena.address?_insert

theorem link?_insertNode : (g.insertNode gid name).2.link? id = g.link? id :=
  rfl

theorem keeps_insertNode : Keeps g (g.insertNode gid name).2 :=
  ⟨fun _ => rfl, rfl, rfl⟩

theorem participants_insertNode :
    (g.insertNode gid name).2.participants =
      g.participants.modify gid fun record =>
        { record with nodes := record.nodes ++ [(g.insertNode gid name).1] } :=
  rfl

theorem enclave?_insertNode (owner : Gid) :
    (g.insertNode gid name).2.enclave? owner = g.enclave? owner := by
  simp only [enclave?, participants_insertNode, Std.ExtTreeMap.getElem?_modify,
    Std.LawfulEqCmp.compare_eq_iff_eq]
  split
  · rename_i heq
    rw [heq, Option.map_map]
    rfl
  · rfl

end InsertNode

theorem hosted_insertNode (hgid : gid ∈ g.participants) (other : Gid) :
    (g.insertNode gid name).2.hosted other =
      if gid = other then g.hosted gid ++ [(g.insertNode gid name).1] else g.hosted other := by
  obtain ⟨record, hrecord⟩ :=
    Option.isSome_iff_exists.mp (Std.ExtTreeMap.mem_iff_isSome_getElem?.mp hgid)
  simp only [hosted, participants_insertNode, Std.ExtTreeMap.getElem?_modify,
    Std.LawfulEqCmp.compare_eq_iff_eq]
  split
  · rename_i heq
    simp [hrecord]
  · rfl

namespace WellFormed

theorem vacant_insertNode (h : g.WellFormed) :
    g.nodes.address? (g.insertNode gid name).1 = none :=
  h.arena.vacant_insert gid name

/-- A participant may get a node of a name that none of its nodes has. -/
theorem insertNode (h : g.WellFormed) (hgid : gid ∈ g.participants)
    (hnew : g.nodes.find? gid name = none) : (g.insertNode gid name).2.WellFormed := by
  have hvacant : g.nodes.address? (g.insertNode gid name).1 = none := h.vacant_insertNode
  have hfresh := h.find?_eq_none_iff.mp hnew
  have hlive : ∀ key address, g.nodes.address? key = some address →
      (g.insertNode gid name).2.nodes.address? key = some address := by
    intro key address hkey
    rw [address?_insertNode, if_neg, hkey]
    rintro rfl
    rw [hvacant] at hkey
    cases hkey
  exact {
    arena := h.arena.insert gid name
    lists_iff := by
      intro id key
      rw [link?_insertNode, ← h.lists_iff]
      exact NodeArena.lists_insert hvacant
    awaiting_live := by
      intro id key hid
      obtain ⟨address, hkey⟩ := h.awaiting_live id key hid
      exact ⟨address, hlive key address hkey⟩
    awaiting_unknown := h.awaiting_unknown
    awaiting_allowed := h.awaiting_allowed
    mem_hosted_iff := by
      intro owner key
      rw [hosted_insertNode hgid, address?_insertNode]
      by_cases hkey : (g.insertNode gid name).1 = key
      · have hold : key ∉ g.hosted owner := by
          rw [h.mem_hosted_iff, ← hkey, hvacant]
          simp
        by_cases howner : gid = owner <;> simp_all
      · by_cases howner : gid = owner
        · subst howner
          simp [hkey, Ne.symm hkey, h.mem_hosted_iff]
        · simp [hkey, howner, h.mem_hosted_iff]
    nodup_hosted := by
      intro owner
      rw [hosted_insertNode hgid]
      split
      · have hold : (g.insertNode gid name).1 ∉ g.hosted gid := by
          rw [h.mem_hosted_iff, hvacant]
          simp
        exact List.nodup_append.mpr ⟨h.nodup_hosted gid, by simp, by
          intro a ha b hb hab
          rw [List.mem_singleton.mp hb] at hab
          exact hold (hab ▸ ha)⟩
      · exact h.nodup_hosted owner
    address?_inj := by
      intro key other address hkey hother
      rw [address?_insertNode] at hkey hother
      split at hkey <;> split at hother
      · simp_all
      · cases hkey
        exact absurd hother (hfresh other)
      · cases hother
        exact absurd hkey (hfresh key)
      · exact h.address?_inj key other address hkey hother }

/-- A new node is not the place of anything yet. -/
theorem bind_address?_insertNode (h : g.WellFormed) {slot : Option NodeKey}
    (hlive : ∀ key, slot = some key → ∃ address, g.nodes.address? key = some address) :
    slot.bind (g.insertNode gid name).2.nodes.address? = slot.bind g.nodes.address? := by
  cases slot with
  | none => rfl
  | some key =>
    obtain ⟨address, haddress⟩ := hlive key rfl
    rw [Option.bind_some, Option.bind_some, address?_insertNode, if_neg]
    rintro rfl
    rw [h.vacant_insertNode] at haddress
    cases haddress

theorem home?_insertNode (h : g.WellFormed) : (g.insertNode gid name).2.home? id = g.home? id :=
  h.bind_address?_insertNode fun _ => h.toConsistent.address?_of_link?

theorem awaiting?_insertNode (h : g.WellFormed) :
    (g.insertNode gid name).2.awaiting? id = g.awaiting? id :=
  h.bind_address?_insertNode (h.awaiting_live id)

theorem hostedNames_insertNode (h : g.WellFormed) (hgid : gid ∈ g.participants) (owner : Gid) :
    (g.insertNode gid name).2.hostedNames owner =
      if gid = owner then g.hostedNames owner ++ [name] else g.hostedNames owner := by
  have hold : ∀ owner, (g.hosted owner).filterMap (fun key =>
      ((g.insertNode gid name).2.nodes.address? key).map (·.name)) = g.hostedNames owner := by
    intro owner
    refine List.filterMap_congr fun key hkey => ?_
    obtain ⟨known, haddress⟩ := (h.mem_hosted_iff owner key).mp hkey
    rw [address?_insertNode, if_neg]
    rintro rfl
    rw [h.vacant_insertNode] at haddress
    cases haddress
  rw [hostedNames, hosted_insertNode hgid]
  split
  · rename_i heq
    subst heq
    rw [List.filterMap_append, hold]
    simp [address?_insertNode]
  · exact hold owner

end WellFormed

/-! ## Nodes that go away -/

/-- The nodes in the slots `keys` are gone, with all that names these slots. -/
structure Vacated (keys : List NodeKey) (g g' : Graph) : Prop extends Keeps g g' where
  address? : ∀ key, g'.nodes.address? key = if key ∈ keys then none else g.nodes.address? key
  link? : ∀ id key, g'.link? id = some key ↔ g.link? id = some key ∧ key ∉ keys
  pending : ∀ (id : EndpointId) (key : NodeKey),
    g'.pending[id]? = some key ↔ g.pending[id]? = some key ∧ key ∉ keys

namespace Vacated

theorem refl (g : Graph) : Vacated [] g g where
  toKeeps := .refl g
  address? key := by simp
  link? id key := by simp
  pending id key := by simp

theorem trans {keys more : List NodeKey} (h : Vacated keys g g') (h' : Vacated more g' g'') :
    Vacated (keys ++ more) g g'' where
  toKeeps := h.toKeeps.trans h'.toKeeps
  address? key := by
    rw [h'.address?, h.address?]
    by_cases hkeys : key ∈ keys <;> by_cases hmore : key ∈ more <;> simp [hkeys, hmore]
  link? id key := by
    rw [h'.link?, h.link?, List.mem_append, not_or, and_assoc]
  pending id key := by
    rw [h'.pending, h.pending, List.mem_append, not_or, and_assoc]

section Places

variable {keys : List NodeKey} (hv : Vacated keys g g') {gone : NodeAddress → Prop}
  [DecidablePred gone]
  (hgone : ∀ key address, g.nodes.address? key = some address → (key ∈ keys ↔ gone address))
include hv hgone

/-- What refers to a slot loses its place exactly if the node there is one of those that go
away. -/
theorem bind_address? {slot slot' : Option NodeKey}
    (hslot : ∀ key, slot' = some key ↔ slot = some key ∧ key ∉ keys) :
    slot'.bind g'.nodes.address? =
      (slot.bind g.nodes.address?).filter fun address => ¬ gone address := by
  apply Option.ext
  intro address
  simp only [Option.bind_eq_some_iff, hslot, hv.address?, Option.filter_eq_some_iff,
    decide_eq_true_eq]
  constructor
  · rintro ⟨key, ⟨hkey, hstays⟩, haddress⟩
    rw [if_neg hstays] at haddress
    exact ⟨⟨key, hkey, haddress⟩, fun hg => hstays ((hgone key address haddress).mpr hg)⟩
  · rintro ⟨⟨key, hkey, haddress⟩, hstays⟩
    have hlive : key ∉ keys := fun hg => hstays ((hgone key address haddress).mp hg)
    exact ⟨key, ⟨hkey, hlive⟩, by rw [if_neg hlive, haddress]⟩

theorem home? (id : EndpointId) :
    g'.home? id = (g.home? id).filter fun address => ¬ gone address :=
  hv.bind_address? hgone (hv.link? id)

theorem awaiting? (id : EndpointId) :
    g'.awaiting? id = (g.awaiting? id).filter fun address => ¬ gone address :=
  hv.bind_address? hgone (hv.pending id)

end Places

end Vacated

theorem dropNode_of_vacant (h : g.nodes.get? key = none) : g.dropNode key = g := by
  simp [dropNode, h]

theorem participants_dropNode (g : Graph) (key : NodeKey) :
    (g.dropNode key).participants = g.participants := by
  unfold dropNode
  split <;> rfl

theorem nodes_dropNode (g : Graph) (key : NodeKey) : (g.dropNode key).nodes = g.nodes.erase key := by
  unfold dropNode NodeArena.erase
  cases hkey : g.nodes.get? key with
  | none => rfl
  | some node => rfl

namespace Consistent

/-- Consistency is not about participants. -/
theorem withParticipants (h : g.Consistent) (participants : Std.ExtTreeMap Gid Participant) :
    ({ g with participants } : Graph).Consistent :=
  ⟨h.arena, h.lists_iff, h.awaiting_live, h.awaiting_unknown, h.awaiting_allowed⟩

/-- Nothing refers to a slot that is vacant. -/
theorem vacated_of_vacant (h : g.Consistent) (hvacant : g.nodes.address? key = none) :
    Vacated [key] g g where
  toKeeps := .refl g
  address? other := by
    by_cases hother : other = key <;> simp [hother, hvacant]
  link? id other := by
    refine ⟨fun hid => ⟨hid, ?_⟩, And.left⟩
    rw [List.mem_singleton]
    rintro rfl
    obtain ⟨address, haddress⟩ := h.address?_of_link? hid
    simp [hvacant] at haddress
  pending id other := by
    refine ⟨fun hid => ⟨hid, ?_⟩, And.left⟩
    rw [List.mem_singleton]
    rintro rfl
    obtain ⟨address, haddress⟩ := h.awaiting_live id other hid
    simp [hvacant] at haddress

theorem vacated_dropNode (h : g.Consistent) (key : NodeKey) :
    Vacated [key] g (g.dropNode key) := by
  cases hnode : g.nodes.get? key with
  | none =>
    rw [dropNode_of_vacant hnode]
    exact h.vacated_of_vacant (NodeArena.address?_eq_none_iff.mpr hnode)
  | some node =>
    have hmember : ∀ id, id ∈ node.endpoints ↔ g.link? id = some key := by
      intro id
      rw [← h.lists_iff]
      simp [NodeArena.Lists, hnode]
    simp only [dropNode, hnode]
    exact {
      address? := by
        intro other
        simp only [NodeArena.address?_erase, List.mem_singleton, eq_comm (a := key)]
      link? := by
        intro id other
        simp only [Graph.link?, Std.ExtTreeMap.getElem?_map] at hmember ⊢
        cases hid : g.endpoints[id]? with
        | none => simp
        | some endpoint =>
          have := hmember id
          rw [hid] at this
          by_cases hin : id ∈ node.endpoints
          · have hlink : endpoint.link = some key := by simpa [hin] using this
            simp [hin, Endpoint.unlinked, hlink, eq_comm (a := key)]
          · have hlink : endpoint.link ≠ some key := by simpa [hin] using this
            simp only [Option.map_some, Option.bind_some, hin, if_false, List.mem_singleton]
            refine ⟨fun heq => ⟨heq, ?_⟩, And.left⟩
            rintro rfl
            exact hlink heq
      pending := by
        intro id other
        simp [Option.filter_eq_some_iff]
      topicAndType? := by
        intro id
        simp only [Graph.topicAndType?, Std.ExtTreeMap.getElem?_map, Option.map_map]
        congr 1
        funext endpoint
        simp only [Function.comp_apply]
        split <;> rfl
      prefs := rfl
      watched := rfl }

theorem dropNode (h : g.Consistent) (key : NodeKey) : (g.dropNode key).Consistent := by
  have hv := h.vacated_dropNode key
  refine ⟨?_, ?_, ?_, ?_, ?_⟩
  · cases hnode : g.nodes.get? key with
    | none =>
      rw [dropNode_of_vacant hnode]
      exact h.arena
    | some node =>
      simp only [Graph.dropNode, hnode]
      exact h.arena.erase key
  · intro id other
    have hlists : (g.dropNode key).nodes.Lists other id ↔ key ≠ other ∧ g.nodes.Lists other id := by
      cases hnode : g.nodes.get? key with
      | none =>
        rw [dropNode_of_vacant hnode]
        refine ⟨fun hl => ⟨?_, hl⟩, And.right⟩
        rintro rfl
        obtain ⟨node, hkey, -⟩ := hl
        simp [hnode] at hkey
      | some node =>
        simp only [Graph.dropNode, hnode]
        exact NodeArena.lists_erase
    rw [hlists, hv.link?, h.lists_iff, and_comm, List.mem_singleton, ne_comm]
  · intro id other hid
    obtain ⟨hold, hother⟩ := (hv.pending id other).mp hid
    rw [hv.address?, if_neg hother]
    exact h.awaiting_live id other hold
  · intro id other hid
    rw [hv.mem_endpoints]
    exact h.awaiting_unknown id other ((hv.pending id other).mp hid).1
  · intro id other hid
    rw [hv.prefs]
    exact h.awaiting_allowed id other ((hv.pending id other).mp hid).1

end Consistent

/-- Nodes may go away when the participants no longer host them. -/
theorem WellFormed.vacate {keys : List NodeKey} (h : g.WellFormed) (hc : g'.Consistent)
    (hv : Vacated keys g g')
    (hhosted : ∀ gid, g'.hosted gid = (g.hosted gid).filter (· ∉ keys)) : g'.WellFormed where
  toConsistent := hc
  mem_hosted_iff gid key := by
    rw [hhosted, hv.address?, List.mem_filter, h.mem_hosted_iff]
    by_cases hkey : key ∈ keys <;> simp [hkey]
  nodup_hosted gid := by
    rw [hhosted]
    exact (h.nodup_hosted gid).filter _
  address?_inj key other address hkey hother := by
    rw [hv.address?] at hkey hother
    split at hkey
    · cases hkey
    · split at hother
      · cases hother
      · exact h.address?_inj key other address hkey hother

theorem WellFormed.hostedNames_vacate {keys : List NodeKey} (h : g.WellFormed)
    (hv : Vacated keys g g') {gone : NodeAddress → Prop} [DecidablePred gone]
    (hgone : ∀ key address, g.nodes.address? key = some address → (key ∈ keys ↔ gone address))
    (hhosted : ∀ gid, g'.hosted gid = (g.hosted gid).filter (· ∉ keys)) (owner : Gid) :
    g'.hostedNames owner = (g.hostedNames owner).filter fun name => ¬ gone ⟨owner, name⟩ := by
  rw [hostedNames, hhosted, List.filterMap_filter, hostedNames, List.filter_filterMap]
  refine List.filterMap_congr fun key hkey => ?_
  obtain ⟨name, haddress⟩ := (h.mem_hosted_iff owner key).mp hkey
  by_cases hkeep : gone ⟨owner, name⟩ <;>
    simp [hv.address?, haddress, hgone key _ haddress, hkeep, Option.filter_some]

/-! ## Nodes that go away one after the other -/

theorem foldl_dropNode (h : g.Consistent) (keys : List NodeKey) :
    Vacated keys g (keys.foldl dropNode g) ∧ (keys.foldl dropNode g).Consistent ∧
      (keys.foldl dropNode g).participants = g.participants := by
  induction keys generalizing g with
  | nil => exact ⟨.refl g, h, rfl⟩
  | cons key keys ih =>
    obtain ⟨hv, hc, hp⟩ := ih (h.dropNode key)
    exact ⟨(h.vacated_dropNode key).trans hv, hc, hp.trans (participants_dropNode g key)⟩

/-- The participant no longer hosts the node. -/
theorem hosted_removeNodeAt (owner : Gid) :
    (g.removeNodeAt gid key).hosted owner =
      if gid = owner then (g.hosted owner).filter (· ≠ key) else g.hosted owner := by
  simp only [removeNodeAt, hosted, participants_dropNode, Std.ExtTreeMap.getElem?_modify,
    Std.LawfulEqCmp.compare_eq_iff_eq]
  split
  · rename_i heq
    rw [heq]
    cases g.participants[owner]? <;> simp
  · rfl

theorem enclave?_removeNodeAt (owner : Gid) :
    (g.removeNodeAt gid key).enclave? owner = g.enclave? owner := by
  simp only [removeNodeAt, enclave?, participants_dropNode, Std.ExtTreeMap.getElem?_modify,
    Std.LawfulEqCmp.compare_eq_iff_eq]
  split
  · rename_i heq
    rw [heq, Option.map_map]
    rfl
  · rfl

theorem vacated_removeNodeAt (h : g.Consistent) (gid : Gid) (key : NodeKey) :
    Vacated [key] g (g.removeNodeAt gid key) := by
  have hv := (h.withParticipants (g.participants.modify gid fun record =>
    { record with nodes := record.nodes.filter (· ≠ key) })).vacated_dropNode key
  exact ⟨⟨hv.topicAndType?, hv.prefs, hv.watched⟩, hv.address?, hv.link?, hv.pending⟩

namespace WellFormed

theorem hosted_removeNodeAt (h : g.WellFormed)
    (hkey : ∀ address, g.nodes.address? key = some address → address.participant = gid)
    (owner : Gid) :
    (g.removeNodeAt gid key).hosted owner = (g.hosted owner).filter (· ∉ [key]) := by
  rw [Graph.hosted_removeNodeAt]
  split
  · simp
  · rename_i hne
    refine (List.filter_eq_self.mpr fun other hother => ?_).symm
    obtain ⟨name, haddress⟩ := (h.mem_hosted_iff owner other).mp hother
    have hother : other ≠ key := by
      rintro rfl
      exact hne (hkey _ haddress).symm
    simpa using hother

theorem removeNodeAt (h : g.WellFormed)
    (hkey : ∀ address, g.nodes.address? key = some address → address.participant = gid) :
    (g.removeNodeAt gid key).WellFormed :=
  h.vacate ((h.toConsistent.withParticipants _).dropNode key)
    (vacated_removeNodeAt h.toConsistent gid key) (h.hosted_removeNodeAt hkey)

/-- Nodes of one participant go away one after the other. -/
theorem foldl_removeNodeAt (h : g.WellFormed) (gid : Gid) (keys : List NodeKey)
    (hkeys : ∀ key ∈ keys, ∀ address, g.nodes.address? key = some address →
      address.participant = gid) :
    (keys.foldl (Graph.removeNodeAt · gid) g).WellFormed ∧
      Vacated keys g (keys.foldl (Graph.removeNodeAt · gid) g) ∧
      (∀ owner, (keys.foldl (Graph.removeNodeAt · gid) g).enclave? owner = g.enclave? owner) ∧
      ∀ owner, (keys.foldl (Graph.removeNodeAt · gid) g).hosted owner =
        (g.hosted owner).filter (· ∉ keys) := by
  induction keys generalizing g with
  | nil => exact ⟨h, .refl g, fun _ => rfl, fun owner => by simp⟩
  | cons key keys ih =>
    have hv := vacated_removeNodeAt h.toConsistent gid key
    have hkey := hkeys key List.mem_cons_self
    obtain ⟨hwf, hvs, henclave, hhosted⟩ := ih (h.removeNodeAt hkey) (by
      intro other hother address haddress
      rw [hv.address?] at haddress
      split at haddress
      · cases haddress
      · exact hkeys other (List.mem_cons_of_mem _ hother) address haddress)
    refine ⟨hwf, hv.trans hvs, ?_, ?_⟩
    · intro owner
      exact (henclave owner).trans (enclave?_removeNodeAt owner)
    · intro owner
      rw [List.foldl_cons, hhosted, h.hosted_removeNodeAt hkey, List.filter_filter]
      refine List.filter_congr fun other _ => ?_
      by_cases hother : other = key <;> simp [hother]

/-- No participant hosts the nodes any longer. -/
theorem hosted_dropParticipant (h : g.WellFormed) (gid owner : Gid) :
    ((g.hosted gid).foldl dropNode { g with participants := g.participants.erase gid }).hosted
      owner = (g.hosted owner).filter (· ∉ g.hosted gid) := by
  obtain ⟨-, -, hp⟩ := foldl_dropNode
    (h.toConsistent.withParticipants (g.participants.erase gid)) (g.hosted gid)
  rw [hosted, hp, Std.ExtTreeMap.getElem?_erase]
  simp only [Std.LawfulEqCmp.compare_eq_iff_eq]
  split
  · rename_i heq
    simp [heq]
  · rename_i hne
    refine (List.filter_eq_self.mpr ?_).symm
    intro key hkey
    obtain ⟨name, haddress⟩ := (h.mem_hosted_iff owner key).mp hkey
    have : key ∉ g.hosted gid := by
      rw [h.mem_hosted_iff, haddress]
      simp [Ne.symm hne]
    simpa using this

theorem enclave?_dropParticipant (h : g.WellFormed) (gid owner : Gid) :
    ((g.hosted gid).foldl dropNode { g with participants := g.participants.erase gid }).enclave?
      owner = if gid = owner then none else g.enclave? owner := by
  obtain ⟨-, -, hp⟩ := foldl_dropNode
    (h.toConsistent.withParticipants (g.participants.erase gid)) (g.hosted gid)
  rw [enclave?, hp, Std.ExtTreeMap.getElem?_erase]
  simp only [Std.LawfulEqCmp.compare_eq_iff_eq]
  split <;> rfl

/-- A participant goes away with all its nodes. Its entry goes first, so that the graph is
well-formed only at the end. -/
theorem dropParticipant (h : g.WellFormed) (gid : Gid) :
    Vacated (g.hosted gid) g
        ((g.hosted gid).foldl dropNode { g with participants := g.participants.erase gid }) ∧
      ((g.hosted gid).foldl dropNode
        { g with participants := g.participants.erase gid }).WellFormed := by
  obtain ⟨hv, hc, -⟩ := foldl_dropNode
    (h.toConsistent.withParticipants (g.participants.erase gid)) (g.hosted gid)
  have hvacated : Vacated (g.hosted gid) g ((g.hosted gid).foldl dropNode
      { g with participants := g.participants.erase gid }) :=
    ⟨⟨hv.topicAndType?, hv.prefs, hv.watched⟩, hv.address?, hv.link?, hv.pending⟩
  exact ⟨hvacated, h.vacate hc hvacated (h.hosted_dropParticipant gid)⟩

end WellFormed

end DiscoveryGraph.Graph
