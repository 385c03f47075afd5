import DiscoveryGraph.Proofs.Lockstep

/-!
# When commands are refused

Every cause of a refusal can be seen from outside before the command is given: `Refused` states
the causes in terms of queries, with the one that is reported where several apply. A command that
is refused leaves everything as it is and tells nobody. A request that is carried out tells the
watcher exactly if it has changed the graph; a merge of a snapshot has its own rule for that.

* `result_perform_eq_error_iff`: the causes, for every command.
* `told_perform`: who is told.
* `perform_refused_iff`: both, for every reachable graph.
-/

namespace DiscoveryGraph

namespace Graph

/-- The participant is known and hosts a node called `node`. -/
def Hosts (g : Graph) (gid : Gid) (node : NodeName) : Prop :=
  ∃ state, g.snapshot? gid = some state ∧ node ∈ state.names

/-- Why a node is not found. -/
inductive Missing (g : Graph) (gid : Gid) (node : NodeName) : GraphError → Prop where
  | participant (unknown : g.snapshot? gid = none) : Missing g gid node (.unknownParticipant gid)
  | node {state : Snapshot} (known : g.snapshot? gid = some state) (lacks : node ∉ state.names) :
    Missing g gid node (.unknownNode gid node)

/-- Why a command is refused. -/
inductive Refused (g : Graph) : Command → GraphError → Prop where
  | addEndpoint {id : EndpointId} {topic type : String} (known : (g.endpoint? id).isSome) :
    Refused g (.addEndpoint id topic type) (.duplicateEndpoint id)
  | removeEndpoint {id : EndpointId} (unknown : g.endpoint? id = none) :
    Refused g (.removeEndpoint id) (.unknownEndpoint id)
  | addParticipant {gid : Gid} {enclave : String} (known : (g.snapshot? gid).isSome) :
    Refused g (.addParticipant gid enclave) (.duplicateParticipant gid)
  | removeParticipant {gid : Gid} (unknown : g.snapshot? gid = none) :
    Refused g (.removeParticipant gid) (.unknownParticipant gid)
  | addNodeUnder {gid : Gid} {node : NodeName} (unknown : g.snapshot? gid = none) :
    Refused g (.addNode gid node) (.unknownParticipant gid)
  | addNode {gid : Gid} {node : NodeName} (hosts : g.Hosts gid node) :
    Refused g (.addNode gid node) (.duplicateNode gid node)
  | removeNode {gid : Gid} {node : NodeName} {error : GraphError}
    (missing : g.Missing gid node error) : Refused g (.removeNode gid node) error
  | associateWith {id : EndpointId} {gid : Gid} {node : NodeName} {error : GraphError}
    (missing : g.Missing gid node error) : Refused g (.associate id gid node) error
  | associate {id : EndpointId} {gid : Gid} {node : NodeName} (hosts : g.Hosts gid node)
    (unknown : g.endpoint? id = none) : Refused g (.associate id gid node) (.unknownEndpoint id)
  | dissociateFrom {id : EndpointId} {gid : Gid} {node : NodeName} {error : GraphError}
    (missing : g.Missing gid node error) : Refused g (.dissociate id gid node) error
  | dissociate {id : EndpointId} {gid : Gid} {node : NodeName} (hosts : g.Hosts gid node)
    (unknown : g.endpoint? id = none) : Refused g (.dissociate id gid node) (.unknownEndpoint id)
  | reconcile {snapshot : Snapshot} {node : NodeName} {earlier later : List NodeName}
    (names : snapshot.names = earlier ++ node :: later) (repeated : node ∈ earlier)
    (first : earlier.Nodup) : Refused g (.reconcile snapshot) (.duplicateSnapshotNode node)

variable {g a : Graph} {id : EndpointId} {gid : Gid} {node : NodeName} {error : GraphError}
  {key : NodeKey} {topic type enclave : String} {snapshot : Snapshot}

theorem endpoint?_eq_none_iff : g.endpoint? id = none ↔ id ∉ g.endpoints := by
  simp [endpoint?]

theorem snapshot?_eq_none_iff : g.snapshot? gid = none ↔ gid ∉ g.participants := by
  rw [← isSome_snapshot?_iff, Option.not_isSome_iff_eq_none]

theorem hosts_iff : g.Hosts gid node ↔ node ∈ g.hostedNames gid := by
  rw [← getD_names_snapshot?, Hosts]
  cases g.snapshot? gid <;> simp

theorem WellFormed.missing_iff (h : g.WellFormed) :
    g.Missing gid node error ↔ g.find gid node = .error error := by
  have hnone : g.nodes.find? gid node = none ↔ node ∉ g.hostedNames gid := by
    rw [← h.isSome_find?_iff, Option.not_isSome_iff_eq_none]
  by_cases hgid : gid ∈ g.participants
  · obtain ⟨state, hstate⟩ := Option.isSome_iff_exists.mp (isSome_snapshot?_iff.mpr hgid)
    rw [find, if_neg (not_not.mpr hgid)]
    rw [← names_snapshot? hstate] at hnone
    constructor
    · rintro (hunknown | ⟨hknown, hlacks⟩)
      · exact absurd hgid (snapshot?_eq_none_iff.mp hunknown)
      · rw [hstate, Option.some.injEq] at hknown
        rw [hnone.mpr (hknown ▸ hlacks)]
    · cases hfind : g.nodes.find? gid node with
      | none =>
        rintro ⟨⟩
        exact .node hstate (hnone.mp hfind)
      | some key => rintro ⟨⟩
  · rw [find, if_pos hgid, Except.error.injEq]
    constructor
    · rintro (hunknown | ⟨hknown, hlacks⟩)
      · rfl
      · rw [snapshot?_eq_none_iff.mpr hgid] at hknown
        cases hknown
    · rintro rfl
      exact .participant (snapshot?_eq_none_iff.mpr hgid)

theorem WellFormed.hosts_of_find (h : g.WellFormed) (hfind : g.find gid node = .ok key) :
    g.Hosts gid node :=
  hosts_iff.mpr (h.mem_hostedNames_iff.mpr ⟨key, h.find_eq_ok hfind⟩)

theorem WellFormed.find_of_hosts (h : g.WellFormed) (hhosts : g.Hosts gid node) :
    ∃ key, g.find gid node = .ok key := by
  obtain ⟨key, hkey⟩ := h.mem_hostedNames_iff.mp (hosts_iff.mp hhosts)
  exact ⟨key, h.find_eq_ok_iff.mpr hkey⟩

theorem WellFormed.not_missing (h : g.WellFormed) (hhosts : g.Hosts gid node) :
    ¬ g.Missing gid node error := by
  obtain ⟨key, hkey⟩ := h.find_of_hosts hhosts
  rw [h.missing_iff, hkey]
  exact nofun

end Graph

/-! ## Who is told -/

/-- The watcher is told exactly if the graph is another one afterwards. -/
def Outcome.Told {α : Type} (g : Graph) (outcome : Outcome α) : Prop :=
  outcome.notified = true ↔ g.watched = true ∧ outcome.graph ≠ g

theorem Outcome.Told.map {α β : Type} {g : Graph} {outcome : Outcome α} (h : outcome.Told g)
    (f : α → β) : (outcome.map f).Told g :=
  h

theorem Outcome.result_map_eq_error_iff {α β : Type} {outcome : Outcome α} {f : α → β}
    {error : GraphError} :
    (outcome.map f).result = .error error ↔ outcome.result = .error error := by
  cases h : outcome.result <;> simp [Outcome.map, Except.map, h]

namespace Graph

variable {g a : Graph} {id : EndpointId} {gid : Gid} {node : NodeName} {error : GraphError}
  {key : NodeKey} {topic type enclave : String} {snapshot : Snapshot}

section Outcomes

variable {α : Type} {request : Request} {value : α} {events : List Event}

@[simp] theorem result_refuse {name : Option NodeName} :
    (g.refuse request error name : Outcome α).result = .error error :=
  rfl

@[simp] theorem result_keep : (g.keep value).result = .ok value :=
  rfl

@[simp] theorem result_commit : (g.commit value events).result = .ok value :=
  rfl

theorem told_refuse {name : Option NodeName} :
    (g.refuse request error name : Outcome α).Told g := by
  simp [Outcome.Told, refuse]

theorem told_keep : (g.keep value).Told g := by
  simp [Outcome.Told, keep]

theorem told_commit (hwatched : a.watched = g.watched) (hne : a ≠ g) :
    (a.commit value events).Told g := by
  simp [Outcome.Told, commit, hwatched, hne]

theorem told_answerWithSnapshot (hwatched : a.watched = g.watched) (hne : a ≠ g) :
    (a.answerWithSnapshot gid events).Told g := by
  simp [Outcome.Told, answerWithSnapshot, commit, hwatched, hne]

end Outcomes

/-! ## Endpoints -/

theorem result_addEndpoint (g : Graph) (id : EndpointId) (topic type : String) :
    (g.addEndpoint id topic type).result =
      if id ∈ g.endpoints then .error (.duplicateEndpoint id) else .ok () := by
  by_cases hid : id ∈ g.endpoints
  · rw [if_pos hid, addEndpoint, if_pos hid, result_refuse]
  · rw [if_neg hid, result_addEndpoint_eq_ok_iff.mpr hid]

theorem result_addEndpoint_eq_error_iff : (g.addEndpoint id topic type).result = .error error ↔
    Refused g (.addEndpoint id topic type) error := by
  rw [result_addEndpoint]
  constructor
  · split
    · rename_i hid
      rintro ⟨⟩
      exact .addEndpoint (Std.ExtTreeMap.mem_iff_isSome_getElem?.mp hid)
    · rintro ⟨⟩
  · intro hrefused
    cases hrefused with
    | addEndpoint known => rw [if_pos (Std.ExtTreeMap.mem_iff_isSome_getElem?.mpr known)]

theorem WellFormed.told_addEndpoint (h : g.WellFormed) (id : EndpointId) (topic type : String) :
    (g.addEndpoint id topic type).Told g := by
  by_cases hid : id ∈ g.endpoints
  · rw [Graph.addEndpoint, if_pos hid]
    exact told_refuse
  · have ha := announced_addEndpoint h hid topic type
    rw [h.addEndpoint_eq hid]
    refine told_commit ha.watched fun hsame => hid ?_
    rw [← hsame, ha.mem_endpoints]
    exact Or.inl rfl

theorem result_removeEndpoint (g : Graph) (id : EndpointId) : (g.removeEndpoint id).result =
    if id ∈ g.endpoints then .ok () else .error (.unknownEndpoint id) := by
  cases hnames : g.topicAndType? id with
  | none =>
    have hid : id ∉ g.endpoints := by simp [mem_endpoints_iff, hnames]
    rw [if_neg hid, removeEndpoint, Option.map_eq_none_iff.mp hnames, result_refuse]
  | some names =>
    have hid : id ∈ g.endpoints := by simp [mem_endpoints_iff, hnames]
    rw [if_pos hid, removeEndpoint_eq hnames, result_commit]

theorem result_removeEndpoint_eq_error_iff : (g.removeEndpoint id).result = .error error ↔
    Refused g (.removeEndpoint id) error := by
  rw [result_removeEndpoint]
  constructor
  · split
    · rintro ⟨⟩
    · rename_i hid
      rintro ⟨⟩
      exact .removeEndpoint (endpoint?_eq_none_iff.mpr hid)
  · intro hrefused
    cases hrefused with
    | removeEndpoint unknown => rw [if_neg (endpoint?_eq_none_iff.mp unknown)]

theorem told_removeEndpoint (g : Graph) (id : EndpointId) : (g.removeEndpoint id).Told g := by
  cases hid : g.topicAndType? id with
  | none =>
    rw [removeEndpoint, Option.map_eq_none_iff.mp hid]
    exact told_refuse
  | some names =>
    have hf := forgotten_removeEndpoint g id
    rw [removeEndpoint_eq hid]
    refine told_commit hf.watched fun hsame => ?_
    have hgone := hf.topicAndType? id
    rw [hsame, hid, if_pos rfl] at hgone
    cases hgone

/-! ## Participants -/

theorem result_addParticipant_eq_error_iff : (g.addParticipant gid enclave).result = .error error ↔
    Refused g (.addParticipant gid enclave) error := by
  by_cases hgid : gid ∈ g.participants
  · rw [addParticipant, if_pos hgid, result_refuse, Except.error.injEq]
    constructor
    · rintro rfl
      exact .addParticipant (isSome_snapshot?_iff.mpr hgid)
    · rintro ⟨⟩
      rfl
  · rw [addParticipant, if_neg hgid, result_commit]
    constructor
    · rintro ⟨⟩
    · intro hrefused
      cases hrefused with
      | addParticipant known => exact absurd (isSome_snapshot?_iff.mp known) hgid

theorem told_addParticipant (g : Graph) (gid : Gid) (enclave : String) :
    (g.addParticipant gid enclave).Told g := by
  by_cases hgid : gid ∈ g.participants
  · rw [addParticipant, if_pos hgid]
    exact told_refuse
  · rw [addParticipant, if_neg hgid]
    refine told_commit rfl fun hsame => hgid ?_
    rw [← hsame]
    exact Std.ExtTreeMap.mem_insert_self

theorem result_removeParticipant_eq_error_iff : (g.removeParticipant gid).result = .error error ↔
    Refused g (.removeParticipant gid) error := by
  by_cases hgid : gid ∈ g.participants
  · rw [removeParticipant_eq hgid, result_commit]
    constructor
    · rintro ⟨⟩
    · intro hrefused
      cases hrefused with
      | removeParticipant unknown => exact absurd hgid (snapshot?_eq_none_iff.mp unknown)
  · rw [removeParticipant, Std.ExtTreeMap.getElem?_eq_none hgid, result_refuse, Except.error.injEq]
    constructor
    · rintro rfl
      exact .removeParticipant (snapshot?_eq_none_iff.mpr hgid)
    · rintro ⟨⟩
      rfl

theorem WellFormed.told_removeParticipant (h : g.WellFormed) (gid : Gid) :
    (g.removeParticipant gid).Told g := by
  by_cases hgid : gid ∈ g.participants
  · rw [removeParticipant_eq hgid]
    refine told_commit (h.dropParticipant gid).1.watched fun hsame => ?_
    have hgone := h.enclave?_dropParticipant gid gid
    rw [hsame, if_pos rfl] at hgone
    rw [mem_participants_iff, hgone] at hgid
    cases hgid
  · rw [Graph.removeParticipant, Std.ExtTreeMap.getElem?_eq_none hgid]
    exact told_refuse

/-! ## Nodes -/

theorem WellFormed.result_addNode_eq_error_iff (h : g.WellFormed) :
    (g.addNode gid node).result = .error error ↔ Refused g (.addNode gid node) error := by
  have hfind : (g.nodes.find? gid node).isSome ↔ g.Hosts gid node :=
    h.isSome_find?_iff.trans hosts_iff.symm
  unfold Graph.addNode
  by_cases hgid : gid ∈ g.participants
  · rw [if_neg (not_not.mpr hgid)]
    by_cases hhosts : g.Hosts gid node
    · rw [if_pos (hfind.mpr hhosts), result_refuse, Except.error.injEq]
      constructor
      · rintro rfl
        exact .addNode hhosts
      · intro hrefused
        cases hrefused with
        | addNodeUnder unknown => exact absurd hgid (snapshot?_eq_none_iff.mp unknown)
        | addNode hosts => rfl
    · obtain ⟨state, hstate⟩ :=
        result_answerWithSnapshot (mem_participants_insertNode hgid) [.nodeAdded gid node]
      rw [if_neg (mt hfind.mp hhosts), hstate]
      constructor
      · rintro ⟨⟩
      · intro hrefused
        cases hrefused with
        | addNodeUnder unknown => exact absurd hgid (snapshot?_eq_none_iff.mp unknown)
        | addNode hosts => exact absurd hosts hhosts
  · rw [if_pos hgid, result_refuse, Except.error.injEq]
    constructor
    · rintro rfl
      exact .addNodeUnder (snapshot?_eq_none_iff.mpr hgid)
    · intro hrefused
      cases hrefused with
      | addNodeUnder unknown => rfl
      | addNode hosts =>
        obtain ⟨state, hstate, -⟩ := hosts
        rw [snapshot?_eq_none_iff.mpr hgid] at hstate
        cases hstate

theorem WellFormed.told_addNode (h : g.WellFormed) (gid : Gid) (node : NodeName) :
    (g.addNode gid node).Told g := by
  unfold Graph.addNode
  split
  · exact told_refuse
  · rename_i hgid
    split
    · exact told_refuse
    · rename_i hnew
      refine told_answerWithSnapshot (keeps_insertNode g gid node).watched fun hsame => hnew ?_
      have hnames : (g.insertNode gid node).2.hostedNames gid = _ :=
        h.hostedNames_insertNode (not_not.mp hgid) gid
      rw [hsame, if_pos rfl] at hnames
      rw [h.isSome_find?_iff, hnames]
      simp

theorem WellFormed.result_removeNode_eq_error_iff (h : g.WellFormed) :
    (g.removeNode gid node).result = .error error ↔ g.Missing gid node error := by
  rw [h.missing_iff, Graph.removeNode]
  cases hfind : g.find gid node with
  | error cause => simp [refuseNode]
  | ok key =>
    have hknown : gid ∈ (g.removeNodeAt gid key).participants :=
      mem_participants_removeNodeAt (mem_participants_of_find hfind)
    obtain ⟨state, hstate⟩ := result_answerWithSnapshot hknown [.nodeRemoved gid node]
    simp [hstate]

theorem WellFormed.told_removeNode (h : g.WellFormed) (gid : Gid) (node : NodeName) :
    (g.removeNode gid node).Told g := by
  unfold Graph.removeNode
  split
  · exact told_refuse
  · rename_i key hfind
    have hv := vacated_removeNodeAt h.toConsistent gid key
    refine told_answerWithSnapshot hv.watched fun hsame => ?_
    have hgone := hv.address? key
    rw [hsame, h.find_eq_ok hfind] at hgone
    simp at hgone

/-! ## Associations -/

/-- An association is refused because of the node, or else because of the endpoint. -/
theorem WellFormed.missing_or_iff (h : g.WellFormed) :
    (g.Missing gid node error ∨ g.Hosts gid node ∧ g.endpoint? id = none ∧
        error = .unknownEndpoint id) ↔
      match g.find gid node with
      | .error cause => cause = error
      | .ok _ => id ∉ g.endpoints ∧ error = .unknownEndpoint id := by
  rw [h.missing_iff, endpoint?_eq_none_iff]
  cases hfind : g.find gid node with
  | error cause =>
    have hlacks : ¬ g.Hosts gid node := by
      intro hhosts
      obtain ⟨key, hkey⟩ := h.find_of_hosts hhosts
      rw [hfind] at hkey
      cases hkey
    simp [hlacks]
  | ok key => simp [h.hosts_of_find hfind]

theorem WellFormed.result_associate_eq_error_iff (h : g.WellFormed) :
    (g.associate id gid node).result = .error error ↔
      g.Missing gid node error ∨ g.Hosts gid node ∧ g.endpoint? id = none ∧
        error = .unknownEndpoint id := by
  rw [h.missing_or_iff, Graph.associate]
  cases g.find gid node with
  | error cause => simp [refuseNode]
  | ok key =>
    dsimp only
    split
    · rename_i hid
      simp [hid, eq_comm]
    · rename_i hid
      split <;> simp [hid]

theorem WellFormed.result_dissociate_eq_error_iff (h : g.WellFormed) :
    (g.dissociate id gid node).result = .error error ↔
      g.Missing gid node error ∨ g.Hosts gid node ∧ g.endpoint? id = none ∧
        error = .unknownEndpoint id := by
  rw [h.missing_or_iff, Graph.dissociate]
  cases g.find gid node with
  | error cause => simp [refuseNode]
  | ok key =>
    dsimp only
    split
    · rename_i hid
      simp [hid, eq_comm]
    · rename_i hid
      split <;> simp [hid]

theorem WellFormed.told_associate (h : g.WellFormed) (id : EndpointId) (gid : Gid)
    (node : NodeName) : (g.associate id gid node).Told g := by
  unfold Graph.associate
  split
  · exact told_refuse
  · rename_i key hfind
    split
    · exact told_refuse
    · split
      · exact told_keep
      · rename_i done hdone
        refine told_commit (rewired_attach? hdone).watched fun hsame => ?_
        have hlink := link?_attach? hdone id
        rw [hsame, if_pos rfl] at hlink
        rw [(attach?_eq_none_iff (h.find_eq_ok hfind)).mpr (Or.inr hlink)] at hdone
        cases hdone

theorem told_dissociate (g : Graph) (id : EndpointId) (gid : Gid) (node : NodeName) :
    (g.dissociate id gid node).Told g := by
  unfold dissociate
  split
  · exact told_refuse
  · rename_i key hfind
    split
    · exact told_refuse
    · split
      · exact told_keep
      · rename_i done hdone
        refine told_commit (rewired_detach? hdone).watched fun hsame => ?_
        have hlink := link?_detach? hdone id
        rw [hsame, if_pos rfl] at hlink
        rw [detach?_eq_none_iff.mpr (by simp [hlink])] at hdone
        cases hdone

/-! ## Commands -/

theorem result_reconcile_eq_error_iff_refused : (g.reconcile snapshot).result = .error error ↔
    Refused g (.reconcile snapshot) error := by
  rw [result_reconcile_eq_error_iff]
  constructor
  · rintro ⟨node, hrepeated, rfl⟩
    obtain ⟨earlier, later, hnames, hmem, hnodup⟩ := Snapshot.repeatedNode?_eq_some_iff.mp hrepeated
    exact .reconcile hnames hmem hnodup
  · intro hrefused
    cases hrefused with
    | reconcile names repeated first =>
      exact ⟨_, Snapshot.repeatedNode?_eq_some_iff.mpr ⟨_, _, names, repeated, first⟩, rfl⟩

theorem WellFormed.result_perform_eq_error_iff (h : g.WellFormed) (command : Command) :
    (g.perform command).result = .error error ↔ Refused g command error := by
  cases command with
  | addEndpoint id topic type =>
    rw [Graph.perform, Outcome.result_map_eq_error_iff, result_addEndpoint_eq_error_iff]
  | removeEndpoint id =>
    rw [Graph.perform, Outcome.result_map_eq_error_iff, result_removeEndpoint_eq_error_iff]
  | addParticipant gid enclave =>
    rw [Graph.perform, Outcome.result_map_eq_error_iff, result_addParticipant_eq_error_iff]
  | removeParticipant gid =>
    rw [Graph.perform, Outcome.result_map_eq_error_iff, result_removeParticipant_eq_error_iff]
  | addNode gid node =>
    rw [Graph.perform, Outcome.result_map_eq_error_iff, h.result_addNode_eq_error_iff]
  | removeNode gid node =>
    rw [Graph.perform, Outcome.result_map_eq_error_iff, h.result_removeNode_eq_error_iff]
    constructor
    · exact .removeNode
    · intro hrefused
      cases hrefused with
      | removeNode missing => exact missing
  | associate id gid node =>
    rw [Graph.perform, Outcome.result_map_eq_error_iff, h.result_associate_eq_error_iff]
    constructor
    · rintro (hmissing | ⟨hhosts, hunknown, rfl⟩)
      · exact .associateWith hmissing
      · exact .associate hhosts hunknown
    · intro hrefused
      cases hrefused with
      | associateWith missing => exact Or.inl missing
      | associate hosts unknown => exact Or.inr ⟨hosts, unknown, rfl⟩
  | dissociate id gid node =>
    rw [Graph.perform, Outcome.result_map_eq_error_iff, h.result_dissociate_eq_error_iff]
    constructor
    · rintro (hmissing | ⟨hhosts, hunknown, rfl⟩)
      · exact .dissociateFrom hmissing
      · exact .dissociate hhosts hunknown
    · intro hrefused
      cases hrefused with
      | dissociateFrom missing => exact Or.inl missing
      | dissociate hosts unknown => exact Or.inr ⟨hosts, unknown, rfl⟩
  | reconcile snapshot =>
    rw [Graph.perform, Outcome.result_map_eq_error_iff, result_reconcile_eq_error_iff_refused]
  | watch =>
    constructor
    · rintro ⟨⟩
    · rintro ⟨⟩
  | unwatch =>
    constructor
    · rintro ⟨⟩
    · rintro ⟨⟩

/-- A command is carried out if there is no cause to refuse it. -/
theorem WellFormed.isOk_perform (h : g.WellFormed) {command : Command}
    (hallowed : ∀ error, ¬ Refused g command error) :
    (g.perform command).result.isOk := by
  cases hresult : (g.perform command).result with
  | ok answer => rfl
  | error error =>
    exact absurd ((h.result_perform_eq_error_iff command).mp hresult) (hallowed error)

/-- Requests other than merges tell the watcher about every change and about nothing else. -/
theorem WellFormed.told_perform (h : g.WellFormed) {command : Command}
    (hreconcile : ∀ snapshot, command ≠ .reconcile snapshot) (hwatch : command ≠ .watch)
    (hunwatch : command ≠ .unwatch) : (g.perform command).Told g := by
  cases command with
  | addEndpoint id topic type => exact (h.told_addEndpoint id topic type).map _
  | removeEndpoint id => exact (g.told_removeEndpoint id).map _
  | addParticipant gid enclave => exact (g.told_addParticipant gid enclave).map _
  | removeParticipant gid => exact (h.told_removeParticipant gid).map _
  | addNode gid node => exact (h.told_addNode gid node).map _
  | removeNode gid node => exact (h.told_removeNode gid node).map _
  | associate id gid node => exact (h.told_associate id gid node).map _
  | dissociate id gid node => exact (g.told_dissociate id gid node).map _
  | reconcile snapshot => exact absurd rfl (hreconcile snapshot)
  | watch => exact absurd rfl hwatch
  | unwatch => exact absurd rfl hunwatch

/-- Nobody is told about a command that is refused. -/
theorem notified_of_refused (h : g.WellFormed) {command : Command}
    (herror : (g.perform command).result = .error error) :
    (g.perform command).notified = false := by
  have hsame := g.allOrNothing_perform command error herror
  have hquiet : (g.perform command).Told g → (g.perform command).notified = false := by
    intro htold
    rw [Outcome.Told, hsame] at htold
    simpa using htold
  cases command with
  | reconcile snapshot =>
    -- A merge has its own rule for when it is carried out, but not for when it is refused.
    rw [perform, Outcome.result_map_eq_error_iff, result_reconcile_eq_error_iff] at herror
    obtain ⟨node, hrepeated, -⟩ := herror
    simp [perform, Outcome.map, reconcile, hrepeated]
  | watch => cases herror
  | unwatch => cases herror
  | _ => exact hquiet (h.told_perform (by simp) (by simp) (by simp))

/-- A command is refused exactly if there is a cause for it that queries show, and then for this
cause. All stays as it is then and nobody is told. A command other than a merge that is carried out
tells the watcher, if there is one, exactly if it has changed the graph. -/
theorem perform_refused_iff (hg : g.Reachable) (command : Command) :
    (∀ error, (g.perform command).result = .error error ↔ Refused g command error) ∧
    (∀ error, (g.perform command).result = .error error →
      (g.perform command).graph = g ∧ (g.perform command).notified = false) ∧
    ((∀ snapshot, command ≠ .reconcile snapshot) → command ≠ .watch → command ≠ .unwatch →
      ∀ answer, (g.perform command).result = .ok answer →
        ((g.perform command).notified = true ↔
          g.watched = true ∧ (g.perform command).graph ≠ g)) := by
  have h := hg.wellFormed
  refine ⟨fun error => h.result_perform_eq_error_iff command, fun error herror => ?_, ?_⟩
  · exact ⟨g.allOrNothing_perform command error herror, notified_of_refused h herror⟩
  · intro hreconcile hwatch hunwatch answer _
    exact h.told_perform hreconcile hwatch hunwatch

/-- A node that is there already is refused, and another one is created and announced. -/
theorem perform_refused_iff_addNode :
    let g := (emptyWith .recycle .standard).run
      [.watch, .addParticipant .zero "", .addNode .zero ⟨"/", "a"⟩]
    (g.perform (.addNode .zero ⟨"/", "a"⟩)).result =
        .error (.duplicateNode .zero ⟨"/", "a"⟩) ∧
      (g.perform (.addNode .zero ⟨"/", "a"⟩)).graph = g ∧
      (g.perform (.addNode .zero ⟨"/", "b"⟩)).notified = true := by
  intro g
  have hg : g.Reachable := ⟨_, _, _, rfl⟩
  obtain ⟨hrefused, hstays, -⟩ := perform_refused_iff hg (.addNode .zero ⟨"/", "a"⟩)
  have hstate : g.snapshot? .zero = some ⟨.zero, [⟨⟨"/", "a"⟩, [], []⟩]⟩ := by
    simp only [g]
    decide +kernel
  have herror := (hrefused _).mpr (.addNode ⟨_, hstate, by decide⟩)
  obtain ⟨-, -, htold⟩ := perform_refused_iff hg (.addNode .zero ⟨"/", "b"⟩)
  have hanswer : (g.perform (.addNode .zero ⟨"/", "b"⟩)).result =
      .ok (.snapshot ⟨.zero, [⟨⟨"/", "a"⟩, [], []⟩, ⟨⟨"/", "b"⟩, [], []⟩]⟩) := by
    simp only [g]
    decide +kernel
  refine ⟨herror, (hstays _ herror).1, (htold (by simp) (by simp) (by simp) _ hanswer).mpr ?_⟩
  simp only [g]
  decide +kernel

end Graph

end DiscoveryGraph
