import DiscoveryGraph.Proofs.Slots

/-!
# What a merge counts

The summary of a merge, in terms of the graph before it. The counters are raised one by one in the
course of the merge, while endpoints move between nodes that it has yet to come to. `Counted` says
what a stretch of nodes adds to them. It is read off the graph before the stretch, and the sets of
endpoints in it are taken apart along the stretch (`Snapshot.card_due_cons`,
`Snapshot.card_leaving_cons`).

* `counted_foldl`: what any stretch of the listed nodes adds.
* `summary_run`: the summary of the whole merge.
* `reconcile_counts`: every accepted snapshot.
-/

namespace DiscoveryGraph

open DiscoveryGraph.Graph

/-- A set of endpoints that falls into two parts. -/
theorem card_eq_add {ids left right : Finset EndpointId}
    (hmem : ∀ id, id ∈ ids ↔ id ∈ left ∨ id ∈ right) (hdisjoint : ∀ id ∈ left, id ∉ right) :
    ids.card = left.card + right.card := by
  have hunion : ids = left ∪ right := by
    ext id
    rw [hmem, Finset.mem_union]
  rw [hunion, Finset.card_union_of_disjoint (Finset.disjoint_left.mpr hdisjoint)]

namespace Graph

variable {g : Graph} {id : EndpointId}

/-! ## Endpoints and nodes in number -/

/-- The endpoints that the graph knows. -/
def known (g : Graph) : Finset EndpointId :=
  g.endpoints.keys.toFinset

theorem mem_known : id ∈ g.known ↔ id ∈ g.endpoints := by
  simp [known]

/-- No endpoint is at home at two nodes. -/
theorem name_eq_of_home? {gid gid' : Gid} {name other : NodeName}
    (hhome : g.home? id = some ⟨gid, name⟩) (hhome' : g.home? id = some ⟨gid', other⟩) :
    name = other :=
  congrArg NodeAddress.name (Option.some.inj (hhome.symm.trans hhome'))

/-- The addresses of all nodes. -/
def addresses (g : Graph) : Finset NodeAddress :=
  (g.nodes.records.keys.filterMap g.nodes.address?).toFinset

/-- The two graphs have the same endpoints, and the same of them are at home or waited for at some
nodes of a participant. -/
structure SameAt (gid : Gid) (names : List NodeName) (g g' : Graph) : Prop where
  keeps : Keeps g g'
  home? : ∀ name ∈ names, ∀ id,
    g'.home? id = some ⟨gid, name⟩ ↔ g.home? id = some ⟨gid, name⟩
  awaiting? : ∀ name ∈ names, ∀ id,
    g'.awaiting? id = some ⟨gid, name⟩ ↔ g.awaiting? id = some ⟨gid, name⟩

theorem SameAt.trans {g' g'' : Graph} {gid : Gid} {names : List NodeName}
    (h : SameAt gid names g g') (h' : SameAt gid names g' g'') : SameAt gid names g g'' where
  keeps := h.keeps.trans h'.keeps
  home? name hname id := (h'.home? name hname id).trans (h.home? name hname id)
  awaiting? name hname id := (h'.awaiting? name hname id).trans (h.awaiting? name hname id)

namespace WellFormed

variable (h : g.WellFormed)
include h

theorem mem_addresses {address : NodeAddress} :
    address ∈ g.addresses ↔ address.name ∈ g.hostedNames address.participant := by
  rw [addresses, List.mem_toFinset, List.mem_filterMap, h.mem_hostedNames_iff]
  refine exists_congr fun key => and_iff_right_of_imp fun haddress => ?_
  obtain ⟨node, hnode, -⟩ := NodeArena.address?_eq_some_iff.mp haddress
  exact Std.ExtTreeMap.mem_keys.mpr (Std.ExtTreeMap.mem_iff_isSome_getElem?.mpr (by
    rw [← NodeArena.get?, hnode]
    rfl))

theorem card_addresses : g.addresses.card = g.nodeCount := by
  have hnodup : (g.nodes.records.keys.filterMap g.nodes.address?).Nodup :=
    (Std.ExtTreeMap.nodup_keys).filterMap fun key other address hkey hother =>
      h.address?_inj key other address hkey hother
  rw [addresses, List.toFinset_card_of_nodup hnodup, List.length_filterMap_eq_countP,
    List.countP_eq_length.mpr, Std.ExtTreeMap.length_keys]
  · rfl
  · intro key hkey
    have hsome := Std.ExtTreeMap.mem_iff_isSome_getElem?.mp (Std.ExtTreeMap.mem_keys.mp hkey)
    simpa [NodeArena.address?, NodeArena.get?] using hsome

/-- The nodes of one participant, and those of all others. -/
theorem nodeCount_eq_add (gid : Gid) : g.nodeCount =
    (g.hostedNames gid).length + {address ∈ g.addresses | address.participant ≠ gid}.card := by
  have hown : {address ∈ g.addresses | address.participant = gid} =
      (g.hostedNames gid).toFinset.image (⟨gid, ·⟩) := by
    ext address
    simp only [Finset.mem_filter, h.mem_addresses, Finset.mem_image, List.mem_toFinset]
    constructor
    · rintro ⟨hname, rfl⟩
      exact ⟨address.name, hname, rfl⟩
    · rintro ⟨name, hname, rfl⟩
      exact ⟨hname, rfl⟩
  rw [← h.card_addresses, ← Finset.card_filter_add_card_filter_not (·.participant = gid), hown,
    Finset.card_image_of_injective _ fun name name' heq => congrArg NodeAddress.name heq,
    List.toFinset_card_of_nodup (h.nodup_hostedNames gid)]

end WellFormed

end Graph

/-! ## Endpoints that a merge counts -/

namespace Snapshot

/-- The endpoints that the snapshot lists, each of them once. -/
def ids (snapshot : Snapshot) : Finset EndpointId :=
  (snapshot.nodes.flatMap (·.ids)).toFinset

/-- The address of the node under which an endpoint is listed first. -/
def target? (snapshot : Snapshot) (id : EndpointId) : Option NodeAddress :=
  (snapshot.owner? id).map (⟨snapshot.gid, ·⟩)

/-- The endpoints that are `ready` to go to a node among `names` and are not there. -/
def due (snapshot : Snapshot) (names : List NodeName) (ready : EndpointId → Prop)
    [DecidablePred ready] (place : EndpointId → Option NodeAddress) : Finset EndpointId :=
  {id ∈ snapshot.ids | ready id ∧ (snapshot.owner? id).any (· ∈ names) ∧
    place id ≠ snapshot.target? id}

/-- The endpoints at home at a node among `names` that go elsewhere, or nowhere, and not to a node
that stands before it. -/
def leaving (snapshot : Snapshot) (names : List NodeName) (g : Graph) : Finset EndpointId :=
  {id ∈ g.known | ∃ name ∈ names, g.home? id = some ⟨snapshot.gid, name⟩ ∧
    ∀ owner ∈ snapshot.owner? id, owner ≠ name ∧ ¬ [owner, name].Sublist names}

variable {snapshot : Snapshot} {id : EndpointId} {name : NodeName} {names : List NodeName}
  {ready : EndpointId → Prop} [DecidablePred ready] {place place' : EndpointId → Option NodeAddress}
  {g g' : Graph}

theorem mem_ids : id ∈ snapshot.ids ↔ snapshot.Lists id := by
  simp [ids, Lists]

theorem target?_eq_some_iff :
    snapshot.target? id = some ⟨snapshot.gid, name⟩ ↔ snapshot.owner? id = some name := by
  cases howner : snapshot.owner? id <;> simp [target?, howner]

theorem mem_due : id ∈ snapshot.due names ready place ↔
    ready id ∧ ∃ name ∈ names, snapshot.owner? id = some name ∧
      place id ≠ some ⟨snapshot.gid, name⟩ := by
  rw [due, Finset.mem_filter, mem_ids, ← isSome_owner?_iff, target?]
  cases snapshot.owner? id with
  | none => simp
  | some owner =>
    simp only [Option.isSome_some, Option.any_some, decide_eq_true_eq, Option.map_some, true_and,
      Option.some.injEq]
    grind

theorem mem_leaving : id ∈ snapshot.leaving names g ↔
    ∃ name ∈ names, g.home? id = some ⟨snapshot.gid, name⟩ ∧
      ∀ owner, snapshot.owner? id = some owner →
        owner ≠ name ∧ ¬ [owner, name].Sublist names := by
  simp only [leaving, Finset.mem_filter, mem_known, Option.mem_def, and_iff_right_iff_imp]
  rintro ⟨name, -, hhome, -⟩
  exact mem_endpoints_of_home? hhome

/-- What is due at the whole of a snapshot. -/
theorem due_names : snapshot.due snapshot.names ready place =
    {id ∈ snapshot.ids | ready id ∧ place id ≠ snapshot.target? id} := by
  refine Finset.filter_congr fun id hid => and_congr_right fun _ => and_iff_right ?_
  obtain ⟨name, howner⟩ := Option.isSome_iff_exists.mp (isSome_owner?_iff.mpr (mem_ids.mp hid))
  simp [howner, mem_names_of_owner? howner]

theorem due_congr {ready' : EndpointId → Prop} [DecidablePred ready']
    (hready : ∀ id, ready' id ↔ ready id)
    (hplace : ∀ name ∈ names, ∀ id, snapshot.owner? id = some name →
      (place' id = some ⟨snapshot.gid, name⟩ ↔ place id = some ⟨snapshot.gid, name⟩)) :
    snapshot.due names ready' place' = snapshot.due names ready place := by
  ext id
  simp only [mem_due, hready]
  refine and_congr_right fun _ => exists_congr fun name => and_congr_right fun hname =>
    and_congr_right fun howner => not_congr (hplace name hname id howner)

/-- An endpoint is at another node of the participant after one node has been brought into line
exactly if it was there before and does not go to the one node. -/
theorem place_singleton_eq_some_iff {isReady : Prop} [Decidable isReady]
    {before : Option NodeAddress} {other : NodeName} (hother : other ≠ name) :
    snapshot.place [name] isReady id before = some ⟨snapshot.gid, other⟩ ↔
      before = some ⟨snapshot.gid, other⟩ ∧ ¬ (isReady ∧ snapshot.owner? id = some name) := by
  rw [place_singleton]
  split
  · rename_i htaken
    simp [htaken, Ne.symm hother]
  · rename_i hfree
    simp [Option.filter_eq_some_iff, hfree, hother]

/-- What is due at a stretch of nodes is due at the first of them, or at the others later. -/
theorem card_due_cons (hname : name ∉ names)
    (hplace : ∀ id, place' id = snapshot.place [name] (ready id) id (place id)) :
    (snapshot.due (name :: names) ready place).card =
      (snapshot.due [name] ready place).card + (snapshot.due names ready place').card := by
  have hlater : snapshot.due names ready place' = snapshot.due names ready place := by
    refine due_congr (fun _ => Iff.rfl) fun other hother id howner => ?_
    have hne : other ≠ name := fun heq => hname (heq ▸ hother)
    rw [hplace, place_singleton_eq_some_iff hne, howner]
    simp [hne]
  rw [hlater]
  refine card_eq_add (fun id => ?_) fun id hfirst hrest => ?_
  · simp only [mem_due, List.mem_singleton, exists_eq_left, List.exists_mem_cons_iff, ← and_or_left]
  · obtain ⟨-, first, hfirst, howner, -⟩ := mem_due.mp hfirst
    obtain ⟨-, other, hother, howner', -⟩ := mem_due.mp hrest
    rw [howner] at howner'
    cases howner'
    exact hname (List.mem_singleton.mp hfirst ▸ hother)

theorem mem_due_singleton : id ∈ snapshot.due [name] ready place ↔
    snapshot.owner? id = some name ∧ ready id ∧ place id ≠ some ⟨snapshot.gid, name⟩ := by
  simp only [mem_due, List.mem_singleton, exists_eq_left]
  tauto

theorem mem_leaving_singleton : id ∈ snapshot.leaving [name] g ↔
    g.home? id = some ⟨snapshot.gid, name⟩ ∧ snapshot.owner? id ≠ some name := by
  have hshort : ∀ owner, ¬ [owner, name].Sublist [name] :=
    fun owner hpair => absurd hpair.length_le (by simp)
  simp only [mem_leaving, List.mem_singleton, exists_eq_left, hshort, not_false_eq_true, and_true]
  refine and_congr_right fun _ => ?_
  cases snapshot.owner? id <;> simp

section Leaving

variable (hname : name ∉ names)
  (hhome : ∀ id, g'.home? id = snapshot.place [name] (id ∈ g.endpoints) id (g.home? id))
include hname hhome

/-- When the first of some nodes is in line, the endpoints at the others are those that have been
there and that the first one has not taken. -/
theorem home?_eq_some_iff_later {other : NodeName} (hother : other ∈ names) :
    g'.home? id = some ⟨snapshot.gid, other⟩ ↔
      g.home? id = some ⟨snapshot.gid, other⟩ ∧ snapshot.owner? id ≠ some name := by
  have hne : other ≠ name := fun heq => hname (heq ▸ hother)
  rw [hhome, place_singleton_eq_some_iff hne]
  exact and_congr_right fun hplace => not_congr (and_iff_right (mem_endpoints_of_home? hplace))

theorem mem_leaving_cons : id ∈ snapshot.leaving (name :: names) g ↔
    id ∈ snapshot.leaving [name] g ∨ id ∈ snapshot.leaving names g' := by
  have hpair : ∀ owner other, [owner, other].Sublist (name :: names) ↔
      [owner, other].Sublist names ∨ owner = name ∧ other ∈ names := by
    intro owner other
    rw [List.cons_sublist_cons', List.singleton_sublist]
  have hnone : ∀ owner, ¬ [owner, name].Sublist names :=
    fun owner hpair => hname (hpair.subset (by simp))
  rw [mem_leaving_singleton, mem_leaving, mem_leaving, List.exists_mem_cons_iff]
  refine or_congr ?_ (exists_congr fun other => and_congr_right fun hother => ?_)
  · refine and_congr_right fun _ => ?_
    simp only [hpair, hnone, hname, and_false, or_false, not_false_eq_true, and_true]
    cases snapshot.owner? id <;> simp
  · -- The first node comes before all others, and what it owns does not leave them.
    rw [home?_eq_some_iff_later hname hhome hother, and_assoc]
    refine and_congr_right fun _ => ?_
    simp only [hpair, hother, and_true]
    cases snapshot.owner? id with
    | none => simp
    | some owner =>
      simp only [ne_eq, Option.some.injEq, forall_eq']
      tauto

/-- What leaves a stretch of nodes leaves the first of them, or the others later. -/
theorem card_leaving_cons : (snapshot.leaving (name :: names) g).card =
    (snapshot.leaving [name] g).card + (snapshot.leaving names g').card := by
  refine card_eq_add (fun id => mem_leaving_cons hname hhome) fun id hfirst hrest => ?_
  obtain ⟨other, hother, hplace, -⟩ := mem_leaving.mp hrest
  have hplaced := ((home?_eq_some_iff_later hname hhome hother).mp hplace).1
  have hsame : name = other := name_eq_of_home? (mem_leaving_singleton.mp hfirst).1 hplaced
  exact hname (hsame ▸ hother)

end Leaving

section SameAt

variable (hsame : SameAt snapshot.gid names g g')
include hsame

theorem due_home?_congr : snapshot.due names (· ∈ g'.endpoints) g'.home? =
    snapshot.due names (· ∈ g.endpoints) g.home? :=
  due_congr hsame.keeps.mem_endpoints fun name hname id _ => hsame.home? name hname id

theorem due_awaiting?_congr : snapshot.due names g'.MayWait g'.awaiting? =
    snapshot.due names g.MayWait g.awaiting? :=
  due_congr hsame.keeps.mayWait fun name hname id _ => hsame.awaiting? name hname id

theorem leaving_congr : snapshot.leaving names g' = snapshot.leaving names g := by
  ext id
  rw [mem_leaving, mem_leaving]
  exact exists_congr fun name => and_congr_right fun hname =>
    and_congr_left fun _ => hsame.home? name hname id

end SameAt

end Snapshot

namespace Merge

variable {m m' m'' : Merge} {g g' : Graph} {snapshot : Snapshot} {name : NodeName}
  {names : List NodeName}

/-! ## Counting along the merge -/

/-- A set of endpoints is as large as the part of a tree that it consists of. -/
theorem countP_toList_eq_card {ids : Std.ExtTreeSet EndpointId} {p : EndpointId → Prop}
    [DecidablePred p] {counted : Finset EndpointId} (hmem : ∀ id, id ∈ counted ↔ id ∈ ids ∧ p id) :
    (ids.toList.countP fun id => p id) = counted.card := by
  have hcounted : counted = (ids.toList.filter fun id => p id).toFinset := by
    ext id
    simp [hmem]
  rw [hcounted, List.toFinset_card_of_nodup ((nodup_toList ids).filter _),
    List.countP_eq_length_filter]

/-- What one node adds to the summary, in terms of its address. -/
theorem Settled.summary_eq {key : NodeKey} {wanted : Std.ExtTreeSet EndpointId}
    (hs : Settled key wanted m m') (h : m.graph.WellFormed)
    (hkey : m.graph.nodes.address? key = some ⟨snapshot.gid, name⟩)
    (hwanted : ∀ id, id ∈ wanted ↔ snapshot.owner? id = some name) :
    m'.summary = { m.summary with
      associationsAdded := m.summary.associationsAdded +
        (snapshot.due [name] (· ∈ m.graph.endpoints) m.graph.home?).card
      associationsRemoved := m.summary.associationsRemoved +
        (snapshot.leaving [name] m.graph).card
      deferred := m.summary.deferred +
        (snapshot.due [name] m.graph.MayWait m.graph.awaiting?).card } := by
  have hjoined : (wanted.toList.countP fun id =>
        id ∈ m.graph.endpoints ∧ m.graph.link? id ≠ some key) =
      (snapshot.due [name] (· ∈ m.graph.endpoints) m.graph.home?).card :=
    countP_toList_eq_card fun id => by
      rw [Snapshot.mem_due_singleton, hwanted, ne_eq, h.home?_eq_some_iff hkey]
  have hdeferred : (wanted.toList.countP fun id =>
        m.graph.MayWait id ∧ m.graph.pending[id]? ≠ some key) =
      (snapshot.due [name] m.graph.MayWait m.graph.awaiting?).card :=
    countP_toList_eq_card fun id => by
      rw [Snapshot.mem_due_singleton, hwanted, ne_eq, h.awaiting?_eq_some_iff hkey]
  have hleft : ((currentOf m.graph key).toList.countP fun id => id ∉ wanted) =
      (snapshot.leaving [name] m.graph).card :=
    countP_toList_eq_card fun id => by
      rw [Snapshot.mem_leaving_singleton, mem_currentOf h, ← h.home?_eq_some_iff hkey, hwanted]
  rw [hs.summary, hjoined, hdeferred, hleft]

/-- What bringing the nodes `names` of a snapshot into line adds to the summary. -/
structure Counted (snapshot : Snapshot) (names : List NodeName) (m m' : Merge) : Prop
    extends Merged snapshot names m m' where
  summary : m'.summary = { m.summary with
    nodesAdded := m.summary.nodesAdded +
      names.countP fun name => name ∉ m.graph.hostedNames snapshot.gid
    associationsAdded := m.summary.associationsAdded +
      (snapshot.due names (· ∈ m.graph.endpoints) m.graph.home?).card
    associationsRemoved := m.summary.associationsRemoved + (snapshot.leaving names m.graph).card
    deferred := m.summary.deferred +
      (snapshot.due names m.graph.MayWait m.graph.awaiting?).card }

theorem counted_mergeNode (h : m.graph.WellFormed) (hgid : snapshot.gid ∈ m.graph.participants)
    (hnodup : snapshot.names.Nodup) {entry : NodeEntities} (hentry : entry ∈ snapshot.nodes) :
    Counted snapshot [entry.node] m (mergeNode snapshot m entry) where
  toMerged := merged_mergeNode h hgid hnodup hentry
  summary := by
    have he := ensured_ensureNode h hgid entry.node
    have hs := settled_mergeNode h hgid entry
    have hwanted := Snapshot.mem_ofList_owned_iff hnodup hentry
    have hsame : SameAt snapshot.gid [entry.node] m.graph
        (m.ensureNode snapshot.gid entry.node).2.graph :=
      ⟨he.keeps, fun _ _ id => by rw [he.home?], fun _ _ id => by rw [he.awaiting?]⟩
    rw [hs.summary_eq he.wellFormed he.address? hwanted, Snapshot.due_home?_congr hsame,
      Snapshot.due_awaiting?_congr hsame, Snapshot.leaving_congr hsame, he.summary]
    by_cases hhosts : entry.node ∈ m.graph.hostedNames snapshot.gid <;> simp [hhosts]

theorem Counted.cons (h : Counted snapshot [name] m m') (h' : Counted snapshot names m' m'')
    (hname : name ∉ names) : Counted snapshot (name :: names) m m'' where
  toMerged := h.toMerged.trans h'.toMerged fun other hother hmem =>
    hname (List.mem_singleton.mp hmem ▸ hother)
  summary := by
    have hnodes : (names.countP fun name => name ∉ m'.graph.hostedNames snapshot.gid) =
        names.countP fun name => name ∉ m.graph.hostedNames snapshot.gid :=
      List.countP_congr fun other hother => by
        have hne : other ≠ name := fun heq => hname (heq ▸ hother)
        simp [h.hostedNames, hne]
    have hjoined : snapshot.due names (· ∈ m'.graph.endpoints) m'.graph.home? =
        snapshot.due names (· ∈ m.graph.endpoints) m'.graph.home? :=
      Snapshot.due_congr h.keeps.mem_endpoints fun _ _ _ _ => Iff.rfl
    have hdeferred : snapshot.due names m'.graph.MayWait m'.graph.awaiting? =
        snapshot.due names m.graph.MayWait m'.graph.awaiting? :=
      Snapshot.due_congr h.keeps.mayWait fun _ _ _ _ => Iff.rfl
    rw [h'.summary, h.summary, hnodes, hjoined, hdeferred,
      Snapshot.card_due_cons hname h.home?, Snapshot.card_due_cons hname h.awaiting?,
      Snapshot.card_leaving_cons hname h.home?]
    simp only [List.countP_cons, List.countP_nil, Nat.add_assoc, Nat.zero_add]
    congr 1
    omega

theorem Counted.nil (h : m.graph.WellFormed) : Counted snapshot [] m m where
  toMerged := .refl h
  summary := by simp [Snapshot.due, Snapshot.leaving]

theorem counted_foldl (h : m.graph.WellFormed) (hgid : snapshot.gid ∈ m.graph.participants)
    (hnodup : snapshot.names.Nodup) (entries : List NodeEntities)
    (hentries : entries.Sublist snapshot.nodes) :
    Counted snapshot (entries.map (·.node)) m (entries.foldl (mergeNode snapshot) m) := by
  induction entries generalizing m with
  | nil => exact .nil h
  | cons entry entries ih =>
    have hfirst := counted_mergeNode h hgid hnodup (hentries.subset List.mem_cons_self)
    have hrest := ih hfirst.wellFormed (mem_participants_mergeNode h hgid entry)
      ((List.sublist_cons_self _ _).trans hentries)
    have hdistinct : ((entry :: entries).map (·.node)).Nodup := (hentries.map _).nodup hnodup
    exact hfirst.cons hrest (List.nodup_cons.mp hdistinct).1

/-! ## The summary of a whole merge -/

/-- The number of nodes changes by those that are added and those that are removed. -/
theorem Converged.nodeCount (h : g.WellFormed) (hc : Converged g snapshot g') :
    g'.nodeCount + ((g.hostedNames snapshot.gid).filter (· ∉ snapshot.names)).length =
      g.nodeCount + (snapshot.names.filter (· ∉ g.hostedNames snapshot.gid)).length := by
  have hothers : {address ∈ g'.addresses | address.participant ≠ snapshot.gid} =
      {address ∈ g.addresses | address.participant ≠ snapshot.gid} := by
    ext address
    simp only [Finset.mem_filter, hc.wellFormed.mem_addresses, h.mem_addresses]
    refine and_congr_left fun hother => ?_
    rw [hc.hostedNames, if_neg hother]
  have hformer := List.length_eq_length_filter_add (l := g.hostedNames snapshot.gid)
    (· ∈ snapshot.names)
  rw [h.nodeCount_eq_add snapshot.gid, hc.wellFormed.nodeCount_eq_add snapshot.gid, hothers,
    hc.hostedNames, if_pos rfl, List.length_append]
  simp only [decide_not] at hformer ⊢
  omega

theorem summary_ensureParticipant (g : Graph) (gid : Gid) :
    (ensureParticipant { graph := g, summary := .none, events := [] } gid).summary =
      { Summary.none with participantCreated := decide (gid ∉ g.participants) } := by
  unfold ensureParticipant
  by_cases hgid : gid ∈ g.participants <;> simp [hgid, Summary.none]

theorem Registered.sameAt {gid : Gid} (hr : Registered gid m m') (names : List NodeName) :
    SameAt gid names m.graph m'.graph where
  keeps := hr.keeps
  home? name _ id := by rw [hr.home?]
  awaiting? name _ id := by rw [hr.awaiting?]

/-- Removing other nodes makes no difference to those that stay. -/
theorem Pruned.sameAt {gid : Gid} (hp : Pruned gid names m m') :
    SameAt gid names m.graph m'.graph where
  keeps := hp.keeps
  home? name hname id := by simp [hp.home?, Option.filter_eq_some_iff, hname]
  awaiting? name hname id := by simp [hp.awaiting?, Option.filter_eq_some_iff, hname]

/-- The summary of a merge, read off the graph before it. -/
theorem summary_run (h : g.WellFormed) (hnodup : snapshot.names.Nodup) :
    (run g snapshot).summary = {
      participantCreated := decide (snapshot.gid ∉ g.participants)
      nodesAdded := (snapshot.names.filter (· ∉ g.hostedNames snapshot.gid)).length
      nodesRemoved := ((g.hostedNames snapshot.gid).filter (· ∉ snapshot.names)).length
      associationsAdded := (snapshot.due snapshot.names (· ∈ g.endpoints) g.home?).card
      associationsRemoved := (snapshot.leaving snapshot.names g).card
      deferred := (snapshot.due snapshot.names g.MayWait g.awaiting?).card } := by
  let start : Merge := { graph := g, summary := .none, events := [] }
  let created := start.ensureParticipant snapshot.gid
  let pruned := created.removeStale snapshot.gid snapshot.names
  have hr : Registered snapshot.gid start created := registered_ensureParticipant h snapshot.gid
  have hp : Pruned snapshot.gid snapshot.names created pruned :=
    pruned_removeStale hr.wellFormed snapshot.gid snapshot.names
  have hgid : snapshot.gid ∈ pruned.graph.participants := by
    rw [mem_participants_iff, hp.enclave?, hr.enclave?]
    simp
  have hc : Counted snapshot snapshot.names pruned (run g snapshot) :=
    counted_foldl hp.wellFormed hgid hnodup snapshot.nodes (.refl _)
  -- What the listed nodes add is the same before the merge has begun.
  have hsame : SameAt snapshot.gid snapshot.names g pruned.graph :=
    (hr.sameAt snapshot.names).trans hp.sameAt
  have hnodes : (snapshot.names.countP fun name =>
        name ∉ pruned.graph.hostedNames snapshot.gid) =
      (snapshot.names.filter (· ∉ g.hostedNames snapshot.gid)).length := by
    rw [← List.countP_eq_length_filter]
    refine List.countP_congr fun name hname => ?_
    simp [hp.hostedNames, hr.hostedNames, hname, start]
  have hcreated : created.summary = _ := summary_ensureParticipant g snapshot.gid
  have hremoved : pruned.summary = _ :=
    (removed_removeStale hr.wellFormed snapshot.gid snapshot.names).2.1
  rw [hc.summary, hnodes, Snapshot.due_home?_congr hsame, Snapshot.due_awaiting?_congr hsame,
    Snapshot.leaving_congr hsame, hremoved, hcreated, hr.hostedNames]
  simp [Summary.none, start]

end Merge

namespace Graph

variable {g : Graph} {snapshot : Snapshot} {summary : Summary}

/-- The summary of an accepted snapshot counts the changes that it names: whether the participant
was unknown, its former nodes that the snapshot does not list, the listed nodes that it did not
host, the listed endpoints that are known and were not at home at the node that lists them first,
and, if unknown endpoints are deferred, those for which this node did not wait. -/
theorem reconcile_counts (hg : g.Reachable)
    (haccepted : (g.reconcile snapshot).result = .ok summary) :
    let former := g.hostedNames snapshot.gid
    (summary.participantCreated = true ↔ snapshot.gid ∉ g.participants) ∧
      summary.nodesRemoved = (former.filter (· ∉ snapshot.names)).length ∧
      summary.nodesAdded = (snapshot.names.filter (· ∉ former)).length ∧
      (g.reconcile snapshot).graph.nodeCount + summary.nodesRemoved =
        g.nodeCount + summary.nodesAdded ∧
      summary.associationsAdded =
        {id ∈ snapshot.ids | id ∈ g.endpoints ∧ g.home? id ≠ snapshot.target? id}.card ∧
      summary.deferred =
        if g.prefs.reconcile.deferUnknownEndpoints = true then
          {id ∈ snapshot.ids | id ∉ g.endpoints ∧ g.awaiting? id ≠ snapshot.target? id}.card
        else 0 := by
  intro former
  obtain ⟨hnodup, rfl⟩ := reconcile_eq_ok_iff.mp haccepted
  have h := hg.wellFormed
  have hnodes := (Merge.converged_run h hnodup).nodeCount h
  rw [graph_reconcile haccepted, Merge.summary_run h hnodup, Snapshot.due_names,
    Snapshot.due_names]
  refine ⟨decide_eq_true_iff, rfl, rfl, hnodes, rfl, ?_⟩
  by_cases hallowed : g.prefs.reconcile.deferUnknownEndpoints = true <;> simp [MayWait, hallowed]

/-- One node makes way for another one, and the node that stays gets a reader from it and waits for
a writer. -/
theorem reconcile_counts_replaced :
    let g := (emptyWith .recycle .standard).run
      [.addEndpoint ⟨.reader, .zero⟩ "t" "T",
        .reconcile ⟨.zero, [⟨⟨"/", "a"⟩, [.zero], []⟩, ⟨⟨"/", "b"⟩, [], []⟩]⟩]
    let snapshot : Snapshot := ⟨.zero, [⟨⟨"/", "c"⟩, [], []⟩, ⟨⟨"/", "b"⟩, [.zero], [.zero]⟩]⟩
    (g.reconcile snapshot).result = .ok ⟨false, 1, 1, 1, 0, 1⟩ ∧
      (g.reconcile snapshot).graph.nodeCount = g.nodeCount ∧
      {id ∈ snapshot.ids | id ∈ g.endpoints ∧ g.home? id ≠ snapshot.target? id}.card = 1 := by
  intro g snapshot
  have hg : g.Reachable := ⟨_, _, _, rfl⟩
  have hsummary : (Merge.run g snapshot).summary = ⟨false, 1, 1, 1, 0, 1⟩ := by
    simp only [g, snapshot]
    decide +kernel
  have haccepted : (g.reconcile snapshot).result = .ok ⟨false, 1, 1, 1, 0, 1⟩ :=
    reconcile_eq_ok_iff.mpr ⟨by decide, hsummary⟩
  obtain ⟨-, -, -, hnodes, hjoined, -⟩ := reconcile_counts hg haccepted
  exact ⟨haccepted, Nat.add_right_cancel hnodes, hjoined.symm⟩

end Graph

end DiscoveryGraph
