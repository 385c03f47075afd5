import DiscoveryGraph.Graph.Reconcile
import DiscoveryGraph.Proofs.Nodes

/-!
# Bringing one node into line

What one node of a snapshot costs a merge. `settle` releases the endpoints that the node should
not have, lets it no longer wait for others, and claims those that it should have. Its steps touch
one endpoint each, so that a fold of them is described endpoint by endpoint.

* `settled_settle`: afterwards the wanted endpoints that are known belong to the node, the wanted
  ones that are not known are awaited by it if the preferences allow it, and nothing else belongs
  to it or is awaited by it. The summary counts exactly the endpoints that joined, left, or are
  newly awaited.
* `Settled.eq_of_summary`: if there is nothing to count, the node has at most ceased to wait.
-/

namespace DiscoveryGraph

namespace Merge

open DiscoveryGraph.Graph

variable {m m' m'' : Merge} {id next : EndpointId} {key : NodeKey}
  {wanted : Std.ExtTreeSet EndpointId}

/-! ## Releasing -/

/-- What releasing some endpoints from the node in slot `key` does. -/
structure Released (key : NodeKey) (ids : List EndpointId) (m m' : Merge) : Prop where
  wellFormed : m'.graph.WellFormed
  rewired : Rewired m.graph m'.graph
  pending : m'.graph.pending = m.graph.pending
  link? : ∀ id, m'.graph.link? id =
    if id ∈ ids ∧ m.graph.link? id = some key then none else m.graph.link? id
  summary : m'.summary = { m.summary with
    associationsRemoved := m.summary.associationsRemoved +
      ids.countP fun id => m.graph.link? id = some key }
  events : m'.events = m.events

theorem released_release (h : m.graph.WellFormed) (key : NodeKey) (id : EndpointId) :
    Released key [id] m (release key m id) := by
  unfold release
  cases hd : m.graph.detach? id key with
  | none =>
    have hlink := detach?_eq_none_iff.mp hd
    exact {
      wellFormed := h
      rewired := .refl _
      pending := rfl
      link? := by
        intro next
        rw [if_neg]
        rintro ⟨hmem, hnext⟩
        exact hlink (List.mem_singleton.mp hmem ▸ hnext)
      summary := by simp [hlink]
      events := rfl }
  | some graph =>
    have hlink : m.graph.link? id = some key := by
      by_contra hne
      rw [detach?_eq_none_iff.mpr hne] at hd
      cases hd
    exact {
      wellFormed := h.detach? hd
      rewired := rewired_detach? hd
      pending := pending_detach? hd
      link? := by
        intro next
        rw [link?_detach? hd]
        by_cases hnext : next = id
        · simp [hnext, hlink]
        · simp [hnext]
      summary := by simp [hlink]
      events := rfl }

theorem Released.trans {ids more : List EndpointId} (h : Released key ids m m')
    (h' : Released key more m' m'') (hdisjoint : ∀ id ∈ more, id ∉ ids) :
    Released key (ids ++ more) m m'' where
  wellFormed := h'.wellFormed
  rewired := h.rewired.trans h'.rewired
  pending := h'.pending.trans h.pending
  link? id := by
    rw [h'.link?, h.link?]
    by_cases hids : id ∈ ids
    · have hmore : id ∉ more := fun hmore => hdisjoint id hmore hids
      simp [hids, hmore]
    · simp [hids]
  summary := by
    have hcount : (more.countP fun id => m'.graph.link? id = some key) =
        more.countP fun id => m.graph.link? id = some key :=
      List.countP_congr fun id hid => by
        rw [h.link?, if_neg fun hids => hdisjoint id hid hids.1]
    rw [h'.summary, h.summary, hcount, List.countP_append, Nat.add_assoc]
  events := h'.events.trans h.events

theorem released_foldl (h : m.graph.WellFormed) (key : NodeKey) (ids : List EndpointId)
    (hids : ids.Nodup) : Released key ids m (ids.foldl (release key) m) := by
  induction ids generalizing m with
  | nil => exact ⟨h, .refl _, rfl, fun id => by simp, by simp, rfl⟩
  | cons id ids ih =>
    obtain ⟨hnew, hids⟩ := List.nodup_cons.mp hids
    have hfirst := released_release h key id
    refine hfirst.trans (ih hfirst.wellFormed hids) fun next hnext hmem => ?_
    exact hnew (List.mem_singleton.mp hmem ▸ hnext)

/-! ## Claiming -/

/-- What claiming some endpoints for the node in slot `key` does. -/
structure Claimed (key : NodeKey) (ids : List EndpointId) (m m' : Merge) : Prop where
  wellFormed : m'.graph.WellFormed
  rewired : Rewired m.graph m'.graph
  link? : ∀ id, m'.graph.link? id =
    if id ∈ ids ∧ id ∈ m.graph.endpoints then some key else m.graph.link? id
  pending : ∀ id : EndpointId, m'.graph.pending[id]? =
    if id ∈ ids ∧ m.graph.MayWait id then some key else m.graph.pending[id]?
  summary : m'.summary = { m.summary with
    associationsAdded := m.summary.associationsAdded +
      ids.countP fun id => id ∈ m.graph.endpoints ∧ m.graph.link? id ≠ some key
    deferred := m.summary.deferred +
      ids.countP fun id => m.graph.MayWait id ∧ m.graph.pending[id]? ≠ some key }
  events : m'.events = m.events ++
    (ids.filter fun id => m.graph.MayWait id ∧ m.graph.pending[id]? ≠ some key).map .deferred

/-- An endpoint that belongs to the node or is awaited by it already costs nothing. -/
theorem claimed_of_done (h : m.graph.WellFormed)
    (hlink : id ∈ m.graph.endpoints → m.graph.link? id = some key)
    (hpending : m.graph.MayWait id → m.graph.pending[id]? = some key) :
    Claimed key [id] m m where
  wellFormed := h
  rewired := .refl _
  link? next := by
    rw [eq_comm, ite_eq_right_iff]
    rintro ⟨hnext, hknown⟩
    obtain rfl := List.mem_singleton.mp hnext
    exact (hlink hknown).symm
  pending next := by
    rw [eq_comm, ite_eq_right_iff]
    rintro ⟨hnext, hwait⟩
    obtain rfl := List.mem_singleton.mp hnext
    exact (hpending hwait).symm
  summary := by
    have hjoined : ¬ (id ∈ m.graph.endpoints ∧ m.graph.link? id ≠ some key) :=
      fun hj => hj.2 (hlink hj.1)
    have hdeferred : ¬ (m.graph.MayWait id ∧ m.graph.pending[id]? ≠ some key) :=
      fun hd => hd.2 (hpending hd.1)
    simp only [List.countP_cons, hjoined, hdeferred]
    rfl
  events := by simpa using hpending

theorem claimed_of_attach? (h : m.graph.WellFormed) {graph : Graph}
    (hknown : id ∈ m.graph.endpoints) (hlink : m.graph.link? id ≠ some key)
    (hattach : m.graph.attach? id key = some graph) :
    Claimed key [id] m { m with
      graph
      summary := { m.summary with associationsAdded := m.summary.associationsAdded + 1 } } := by
  have hwait : ¬ m.graph.MayWait id := fun hw => hw.1 hknown
  exact {
    wellFormed := h.attach? hattach
    rewired := rewired_attach? hattach
    link? := by
      intro next
      rw [link?_attach? hattach]
      by_cases hnext : next = id <;> simp [hnext, hknown]
    pending := by
      intro next
      simp only [pending_attach? hattach]
      by_cases hnext : next = id <;> simp [hnext, hwait]
    summary := by simp [hlink, hknown, hwait]
    events := by simp [hwait] }

theorem claimed_of_park (h : m.graph.WellFormed) {address : NodeAddress}
    (hkey : m.graph.nodes.address? key = some address) (hwait : m.graph.MayWait id)
    (hpending : m.graph.pending[id]? ≠ some key) :
    Claimed key [id] m {
      graph := { m.graph with pending := m.graph.pending.insert id key }
      summary := { m.summary with deferred := m.summary.deferred + 1 }
      events := m.events ++ [.deferred id] } where
  wellFormed := h.park hkey hwait
  rewired := .withPending _ _
  link? next := by
    rw [if_neg]
    · rfl
    · rintro ⟨hnext, hknown⟩
      exact hwait.1 (List.mem_singleton.mp hnext ▸ hknown)
  pending next := by
    simp only [Std.ExtTreeMap.getElem?_insert, Std.LawfulEqCmp.compare_eq_iff_eq]
    by_cases hnext : next = id
    · simp [hnext, hwait]
    · simp [hnext, Ne.symm hnext]
  summary := by simp [hwait.1, hwait, hpending]
  events := by simp [hwait, hpending]

theorem claimed_claim (h : m.graph.WellFormed) {address : NodeAddress}
    (hkey : m.graph.nodes.address? key = some address) (id : EndpointId) :
    Claimed key [id] m (claim key m id) := by
  unfold claim
  by_cases hknown : id ∈ m.graph.endpoints
  · rw [if_pos hknown]
    have hattach : m.graph.attach? id key = none ↔
        id ∉ m.graph.endpoints ∨ m.graph.link? id = some key :=
      attach?_eq_none_iff hkey
    cases ha : m.graph.attach? id key with
    | none =>
      have hlink := (hattach.mp ha).resolve_left (not_not.mpr hknown)
      exact claimed_of_done h (fun _ => hlink) fun hwait => absurd hknown hwait.1
    | some graph =>
      refine claimed_of_attach? h hknown (fun hlink => ?_) ha
      rw [hattach.mpr (Or.inr hlink)] at ha
      cases ha
  · rw [if_neg hknown]
    by_cases hallowed : m.graph.prefs.reconcile.deferUnknownEndpoints = true
    · rw [if_neg (by simp [hallowed])]
      by_cases hpending : m.graph.pending[id]? = some key
      · rw [if_pos hpending]
        exact claimed_of_done h (fun hk => absurd hk hknown) fun _ => hpending
      · rw [if_neg hpending]
        exact claimed_of_park h hkey ⟨hknown, hallowed⟩ hpending
    · rw [if_pos (by simpa using hallowed)]
      exact claimed_of_done h (fun hk => absurd hk hknown) fun hwait => absurd hwait.2 hallowed

theorem Claimed.trans {ids more : List EndpointId} (h : Claimed key ids m m')
    (h' : Claimed key more m' m'') (hdisjoint : ∀ id ∈ more, id ∉ ids) :
    Claimed key (ids ++ more) m m'' := by
  have hlink : ∀ id ∈ more, m'.graph.link? id = m.graph.link? id := by
    intro id hid
    rw [h.link?, if_neg fun hids => hdisjoint id hid hids.1]
  have hpending : ∀ id ∈ more, m'.graph.pending[id]? = m.graph.pending[id]? := by
    intro id hid
    rw [h.pending, if_neg fun hids => hdisjoint id hid hids.1]
  have hjoined : (more.filter fun id =>
        id ∈ m'.graph.endpoints ∧ m'.graph.link? id ≠ some key) =
      more.filter fun id => id ∈ m.graph.endpoints ∧ m.graph.link? id ≠ some key :=
    List.filter_congr fun id hid => by
      simp only [hlink id hid, h.rewired.mem_endpoints]
  have hdeferred : (more.filter fun id =>
        m'.graph.MayWait id ∧ m'.graph.pending[id]? ≠ some key) =
      more.filter fun id => m.graph.MayWait id ∧ m.graph.pending[id]? ≠ some key :=
    List.filter_congr fun id hid => by
      simp only [hpending id hid, h.rewired.mayWait]
  exact {
    wellFormed := h'.wellFormed
    rewired := h.rewired.trans h'.rewired
    link? := by
      intro id
      rw [h'.link?, h.link?]
      simp only [h.rewired.mem_endpoints, List.mem_append]
      grind
    pending := by
      intro id
      rw [h'.pending, h.pending]
      simp only [h.rewired.mayWait, List.mem_append]
      grind
    summary := by
      rw [h'.summary, h.summary]
      simp only [List.countP_eq_length_filter, hjoined, hdeferred, List.filter_append,
        List.length_append, Nat.add_assoc]
    events := by
      rw [h'.events, h.events, hdeferred, List.append_assoc, ← List.map_append,
        ← List.filter_append] }

theorem claimed_foldl (h : m.graph.WellFormed) {address : NodeAddress}
    (hkey : m.graph.nodes.address? key = some address) (ids : List EndpointId)
    (hids : ids.Nodup) : Claimed key ids m (ids.foldl (claim key) m) := by
  induction ids generalizing m with
  | nil => exact ⟨h, .refl _, fun id => by simp, fun id => by simp, by simp, by simp⟩
  | cons id ids ih =>
    obtain ⟨hnew, hids⟩ := List.nodup_cons.mp hids
    have hfirst := claimed_claim h hkey id
    have hkept := (hfirst.rewired.address? key).trans hkey
    refine hfirst.trans (ih hfirst.wellFormed hkept hids) fun next hnext hmem => ?_
    exact hnew (List.mem_singleton.mp hmem ▸ hnext)

/-! ## The whole node -/

theorem mem_currentOf {g : Graph} (h : g.WellFormed) :
    id ∈ currentOf g key ↔ g.link? id = some key := by
  rw [← h.lists_iff]
  unfold currentOf NodeArena.Lists
  cases g.nodes.get? key <;> simp

theorem nodup_toList (ids : Std.ExtTreeSet EndpointId) : ids.toList.Nodup := by
  refine ids.distinct_toList.imp ?_
  intro a b h heq
  exact h (heq ▸ Std.ReflCmp.compare_self)

/-- What taking from the node in slot `key` all but the endpoints `wanted` does. -/
structure Cleared (key : NodeKey) (wanted : Std.ExtTreeSet EndpointId) (m m' : Merge) :
    Prop where
  wellFormed : m'.graph.WellFormed
  rewired : Rewired m.graph m'.graph
  link? : ∀ id, m'.graph.link? id =
    if id ∉ wanted ∧ m.graph.link? id = some key then none else m.graph.link? id
  pending : ∀ id : EndpointId, m'.graph.pending[id]? =
    if id ∉ wanted ∧ m.graph.pending[id]? = some key then none else m.graph.pending[id]?
  summary : m'.summary = { m.summary with
    associationsRemoved := m.summary.associationsRemoved +
      (currentOf m.graph key).toList.countP fun id => id ∉ wanted }
  events : m'.events = m.events

theorem cleared_retainPending (h : m.graph.WellFormed) (key : NodeKey)
    (wanted : Std.ExtTreeSet EndpointId) :
    Cleared key wanted m
      ((((currentOf m.graph key).toList.filter (· ∉ wanted)).foldl (release key) m).retainPending
        key wanted) := by
  let surplus := (currentOf m.graph key).toList.filter (· ∉ wanted)
  have hsurplus : ∀ id, id ∈ surplus ↔ m.graph.link? id = some key ∧ id ∉ wanted := by
    simp [surplus, mem_currentOf h]
  have hreleased := released_foldl h key surplus ((nodup_toList _).filter _)
  exact {
    wellFormed := hreleased.wellFormed.retain _
    rewired := hreleased.rewired.trans (.withPending _ _)
    link? := by
      intro id
      refine (hreleased.link? id).trans ?_
      simp only [hsurplus]
      grind
    pending := by
      intro id
      simp only [retainPending, Std.ExtTreeMap.getElem?_filter']
      rw [hreleased.pending]
      cases m.graph.pending[id]? with
      | none => simp
      | some other => simp only [Option.filter_some]; grind
    summary := by
      have hleft : (surplus.countP fun id => m.graph.link? id = some key) =
          (currentOf m.graph key).toList.countP fun id => id ∉ wanted := by
        rw [List.countP_eq_length.mpr fun id hid => by simp [(hsurplus id).mp hid],
          List.countP_eq_length_filter]
      rw [← hleft]
      exact hreleased.summary
    events := hreleased.events }

/-- What bringing the node in slot `key` into line does, when it should have the endpoints
`wanted`. -/
structure Settled (key : NodeKey) (wanted : Std.ExtTreeSet EndpointId) (m m' : Merge) :
    Prop where
  wellFormed : m'.graph.WellFormed
  rewired : Rewired m.graph m'.graph
  link? : ∀ id, m'.graph.link? id =
    if id ∈ wanted ∧ id ∈ m.graph.endpoints then some key
    else if m.graph.link? id = some key then none else m.graph.link? id
  pending : ∀ id : EndpointId, m'.graph.pending[id]? =
    if id ∈ wanted ∧ m.graph.MayWait id then some key
    else if m.graph.pending[id]? = some key then none else m.graph.pending[id]?
  summary : m'.summary = { m.summary with
    associationsAdded := m.summary.associationsAdded +
      wanted.toList.countP fun id => id ∈ m.graph.endpoints ∧ m.graph.link? id ≠ some key
    associationsRemoved := m.summary.associationsRemoved +
      (currentOf m.graph key).toList.countP fun id => id ∉ wanted
    deferred := m.summary.deferred +
      wanted.toList.countP fun id => m.graph.MayWait id ∧ m.graph.pending[id]? ≠ some key }
  events : m'.events = m.events ++
    (wanted.toList.filter fun id =>
      m.graph.MayWait id ∧ m.graph.pending[id]? ≠ some key).map .deferred

theorem settled_settle (h : m.graph.WellFormed) {address : NodeAddress}
    (hkey : m.graph.nodes.address? key = some address) :
    Settled key wanted m (m.settle key wanted) := by
  have hcurrent : ∀ id, id ∈ currentOf m.graph key ↔ m.graph.link? id = some key :=
    fun id => mem_currentOf h
  have hunlinked : ∀ id, m.graph.MayWait id → m.graph.link? id ≠ some key :=
    fun id hw hl => hw.1 (mem_endpoints_of_link? hl)
  -- First the node loses what it should not have, then it gets what it lacks.
  let lacking := wanted.toList.filter (· ∉ currentOf m.graph key)
  have hlacking : ∀ id, id ∈ lacking ↔ id ∈ wanted ∧ m.graph.link? id ≠ some key := by
    simp [lacking, hcurrent]
  obtain ⟨cleared, hcleared, hsettle⟩ : ∃ cleared, Cleared key wanted m cleared ∧
      lacking.foldl (claim key) cleared = m.settle key wanted :=
    ⟨_, cleared_retainPending h key wanted, rfl⟩
  have hclaimed : Claimed key lacking cleared (m.settle key wanted) :=
    hsettle ▸ claimed_foldl hcleared.wellFormed ((hcleared.rewired.address? key).trans hkey)
      lacking ((nodup_toList _).filter _)
  -- What it gets does not depend on what it has lost.
  have hjoined : (lacking.filter fun id =>
        id ∈ cleared.graph.endpoints ∧ cleared.graph.link? id ≠ some key) =
      wanted.toList.filter fun id => id ∈ m.graph.endpoints ∧ m.graph.link? id ≠ some key := by
    rw [List.filter_filter]
    refine List.filter_congr fun id hid => ?_
    have hw : id ∈ wanted := Std.ExtTreeSet.mem_toList.mp hid
    simp only [hcleared.rewired.mem_endpoints, hcleared.link?, hcurrent]
    grind
  have hdeferred : (lacking.filter fun id =>
        cleared.graph.MayWait id ∧ cleared.graph.pending[id]? ≠ some key) =
      wanted.toList.filter fun id => m.graph.MayWait id ∧ m.graph.pending[id]? ≠ some key := by
    rw [List.filter_filter]
    refine List.filter_congr fun id hid => ?_
    have hw : id ∈ wanted := Std.ExtTreeSet.mem_toList.mp hid
    have hfree := hunlinked id
    simp only [hcleared.rewired.mayWait, hcleared.pending, hcurrent]
    grind
  exact {
    wellFormed := hclaimed.wellFormed
    rewired := hcleared.rewired.trans hclaimed.rewired
    link? := by
      intro id
      have hknown : m.graph.link? id = some key → id ∈ m.graph.endpoints := mem_endpoints_of_link?
      simp only [hclaimed.link?, hlacking, hcleared.rewired.mem_endpoints, hcleared.link?]
      grind
    pending := by
      intro id
      have hid := hunlinked id
      have hwaits : m.graph.pending[id]? = some key → m.graph.MayWait id := h.mayWait
      simp only [hclaimed.pending, hlacking, hcleared.rewired.mayWait, hcleared.pending]
      grind
    summary := by
      rw [hclaimed.summary, hcleared.summary]
      simp only [List.countP_eq_length_filter, hjoined, hdeferred]
    events := by
      rw [hclaimed.events, hcleared.events, hdeferred] }

/-- Nothing is counted exactly if the node has the wanted endpoints and no others, and waits for
those that are not known. -/
theorem Settled.summary_eq_iff (h : m.graph.WellFormed) (hs : Settled key wanted m m') :
    m'.summary = m.summary ↔
      (∀ id ∈ wanted, id ∈ m.graph.endpoints → m.graph.link? id = some key) ∧
        (∀ id, m.graph.link? id = some key → id ∈ wanted) ∧
          ∀ id ∈ wanted, m.graph.MayWait id → m.graph.pending[id]? = some key := by
  rw [hs.summary]
  constructor
  · intro hcounts
    have hjoined := congrArg Summary.associationsAdded hcounts
    have hleft := congrArg Summary.associationsRemoved hcounts
    have hdeferred := congrArg Summary.deferred hcounts
    exact ⟨by simpa using hjoined, by simpa [mem_currentOf h] using hleft, by simpa using hdeferred⟩
  · rintro ⟨hjoined, hleft, hdeferred⟩
    rw [List.countP_eq_zero.mpr, List.countP_eq_zero.mpr, List.countP_eq_zero.mpr]
    · rfl
    · simpa using hdeferred
    · simpa [mem_currentOf h] using hleft
    · simpa using hjoined

/-- When there is nothing to count, the node has at most ceased to wait for some endpoints. -/
theorem Settled.eq_of_summary (h : m.graph.WellFormed) (hs : Settled key wanted m m')
    (hsummary : m'.summary = m.summary) : m' = m.retainPending key wanted := by
  obtain ⟨hjoined, hleft, hdeferred⟩ := (hs.summary_eq_iff h).mp hsummary
  have hgraph : m'.graph = (m.retainPending key wanted).graph := by
    have hr : Rewired m.graph (m.retainPending key wanted).graph := .withPending _ _
    refine (h.retain _).ext hs.wellFormed (hr.symm.trans hs.rewired) ?_ ?_
    · intro id
      have hknown : m.graph.link? id = some key → id ∈ m.graph.endpoints := mem_endpoints_of_link?
      have hid := hjoined id
      have hkeep := hleft id
      change m'.graph.link? id = m.graph.link? id
      rw [hs.link?]
      clear hsummary hs
      grind
    · intro id
      have hunknown := h.awaiting_unknown id key
      have hallowed := h.awaiting_allowed id key
      have hid := hdeferred id
      rw [hs.pending]
      clear hsummary hs
      simp only [Std.ExtTreeMap.getElem?_filter']
      cases hid : m.graph.pending[id]? with
      | none => grind
      | some other => simp only [Option.filter_some]; grind [MayWait]
  have hevents : m'.events = m.events := by
    rw [hs.events, List.filter_eq_nil_iff.mpr]
    · simp
    · intro id hid
      have := hdeferred id (Std.ExtTreeSet.mem_toList.mp hid)
      simp only [decide_eq_true_eq, not_and, not_not]
      exact this
  cases m'
  cases m
  simp_all [retainPending]

end Merge

end DiscoveryGraph
