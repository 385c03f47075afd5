import DiscoveryGraph.Proofs.Octets
import DiscoveryGraph.Proofs.Refusals
import DiscoveryGraph.Proofs.Slots

/-!
# The roster of nodes

The nodes of all participants are listed in the order of their names, and nodes of one name in the
order in which they came to be. When a node came to be is a matter of the commands that were
carried out: one node predates another if there was a moment when it was hosted and the other was
not, and it has been hosted ever since. Slot numbers have no part in this.

A command makes some of the nodes of one name go away and adds at most one of them, behind those
that are left (`Succession`); what one command does carries over to a run by induction from its
end.

* `succession_perform`: one command.
* `pairwise_hostsOf_run`: the nodes of one name after a run.
* `rostered_run`: the whole listing after a run.
-/

namespace DiscoveryGraph

/-- Names are ordered by namespace and then by name, octet by octet. -/
def NodeName.Precedes (a b : NodeName) : Prop :=
  Bytes.ofText a.ns < Bytes.ofText b.ns ∨
    a.ns = b.ns ∧ Bytes.ofText a.name < Bytes.ofText b.name

theorem NodeName.precedes_of_compare {a b : NodeName} (h : compare a b = .lt) : a.Precedes b := by
  have hthen : (compare a.ns b.ns).then (compare a.name b.name) = .lt := h
  rcases Ordering.then_eq_lt.mp hthen with hns | ⟨hns, hname⟩
  · exact .inl (Bytes.ofText_lt_of_compare hns)
  · exact .inr ⟨Std.LawfulEqOrd.eq_of_compare hns, Bytes.ofText_lt_of_compare hname⟩

theorem NodeName.Precedes.ne {a b : NodeName} (h : a.Precedes b) : a ≠ b := by
  rintro rfl
  rcases h with hns | ⟨-, hname⟩
  · exact List.lt_irrefl _ hns
  · exact List.lt_irrefl _ hname

namespace Graph

variable {g a : Graph} {gid : Gid} {name : NodeName} {address other : NodeAddress}
  {commands : List Command} {command : Command}

/-! ## One command -/

/-- Who hosts the nodes of one name, before and after: some of these nodes are left, in their
order, and at most one is new. The new one comes last, and its host had none before. -/
def Succession (before after : List Gid) : Prop :=
  ∃ kept, kept.Sublist before ∧ (after = kept ∨ ∃ gid, gid ∉ before ∧ after = kept ++ [gid])

theorem Succession.of_sublist {before after : List Gid} (h : after.Sublist before) :
    Succession before after :=
  ⟨after, h, .inl rfl⟩

theorem Succession.of_eq {before after : List Gid} (h : after = before) :
    Succession before after :=
  .of_sublist (h ▸ List.Sublist.refl _)

theorem WellFormed.hostsOf_removed (h : g.WellFormed) {keys : List NodeKey} (hr : Removed keys g a)
    {gone : NodeAddress → Prop} [DecidablePred gone]
    (hgone : ∀ key address, g.nodes.address? key = some address → (key ∈ keys ↔ gone address))
    (name : NodeName) : a.nodes.hostsOf name =
      (g.nodes.hostsOf name).filter fun gid => ¬ gone ⟨gid, name⟩ := by
  rw [hr.nodes, h.arena.hostsOf_foldl_erase hgone]

theorem WellFormed.succession_addNode (h : g.WellFormed) (gid : Gid) (node name : NodeName) :
    Succession (g.nodes.hostsOf name) ((g.addNode gid node).graph.nodes.hostsOf name) := by
  unfold Graph.addNode
  split
  · exact .of_eq rfl
  · split
    · exact .of_eq rfl
    · rename_i hnew
      have hhosts := h.hostsOf_insertNode gid node name
      split at hhosts
      · rename_i heq
        subst heq
        refine ⟨_, List.Sublist.refl _, .inr ⟨gid, ?_, hhosts⟩⟩
        rw [h.mem_hostsOf_iff, ← h.isSome_find?_iff]
        exact hnew
      · exact .of_eq hhosts

theorem WellFormed.succession_removeNode (h : g.WellFormed) (gid : Gid) (node name : NodeName) :
    Succession (g.nodes.hostsOf name) ((g.removeNode gid node).graph.nodes.hostsOf name) := by
  unfold Graph.removeNode
  cases hfind : g.find gid node with
  | error error => exact .of_eq rfl
  | ok key =>
    have hkey := h.find_eq_ok_iff.mp hfind
    have hhosts := h.hostsOf_removed (h.removed_removeNodeAt hkey)
      (fun _ _ => h.mem_singleton_iff_address hkey) name
    exact .of_sublist (hhosts ▸ List.filter_sublist)

theorem WellFormed.succession_removeParticipant (h : g.WellFormed) (gid : Gid) (name : NodeName) :
    Succession (g.nodes.hostsOf name) ((g.removeParticipant gid).graph.nodes.hostsOf name) := by
  by_cases hgid : gid ∈ g.participants
  · have hhosts := h.hostsOf_removed (h.removed_dropParticipant gid)
      (fun _ _ => h.mem_hosted_iff_participant) name
    rw [removeParticipant_eq hgid]
    exact .of_sublist (hhosts ▸ List.filter_sublist)
  · unfold Graph.removeParticipant
    rw [Std.ExtTreeMap.getElem?_eq_none hgid]
    exact .of_eq rfl

end Graph

/-! ### Merging a snapshot -/

namespace Merge

open DiscoveryGraph.Graph

variable {m : Merge} {snapshot : Snapshot} {g : Graph}

theorem hostsOf_mergeNode (h : m.graph.WellFormed) (hgid : snapshot.gid ∈ m.graph.participants)
    (entry : NodeEntities) (name : NodeName) :
    (mergeNode snapshot m entry).graph.nodes.hostsOf name =
      if name = entry.node ∧ snapshot.gid ∉ m.graph.nodes.hostsOf name then
        m.graph.nodes.hostsOf name ++ [snapshot.gid]
      else m.graph.nodes.hostsOf name := by
  rw [(settled_mergeNode h hgid entry).rewired.toSameNodes.hostsOf]
  by_cases hhosts : entry.node ∈ m.graph.hostedNames snapshot.gid
  · rw [ensureNode_of_mem h hhosts, if_neg]
    rintro ⟨rfl, hlacks⟩
    exact hlacks (h.mem_hostsOf_iff.mpr hhosts)
  · have hfind : m.graph.nodes.find? snapshot.gid entry.node = none := by
      rwa [← h.isSome_find?_iff, Option.not_isSome_iff_eq_none] at hhosts
    rw [ensureNode, hfind]
    change (m.graph.insertNode snapshot.gid entry.node).2.nodes.hostsOf name = _
    rw [h.hostsOf_insertNode]
    by_cases hname : entry.node = name
    · subst hname
      rw [if_pos rfl, if_pos ⟨rfl, mt h.mem_hostsOf_iff.mp hhosts⟩]
    · rw [if_neg hname, if_neg fun hsame => hname hsame.1.symm]

theorem hostsOf_foldl (h : m.graph.WellFormed) (hgid : snapshot.gid ∈ m.graph.participants)
    (entries : List NodeEntities) (name : NodeName) :
    (entries.foldl (mergeNode snapshot) m).graph.nodes.hostsOf name =
      if name ∈ entries.map (·.node) ∧ snapshot.gid ∉ m.graph.nodes.hostsOf name then
        m.graph.nodes.hostsOf name ++ [snapshot.gid]
      else m.graph.nodes.hostsOf name := by
  induction entries generalizing m with
  | nil => simp
  | cons entry entries ih =>
    rw [List.foldl_cons, ih (settled_mergeNode h hgid entry).wellFormed
      (mem_participants_mergeNode h hgid entry), hostsOf_mergeNode h hgid entry]
    by_cases hlacks : snapshot.gid ∈ m.graph.nodes.hostsOf name
    · simp [hlacks]
    · by_cases hname : name = entry.node
      · subst hname
        simp [hlacks]
      · simp [hlacks, hname]

/-- After a merge, the participant comes last among the hosts of nodes of a listed name, unless it
hosted such a node before. It hosts no node of any other name. -/
theorem hostsOf_run (h : g.WellFormed) (snapshot : Snapshot) (name : NodeName) :
    (run g snapshot).graph.nodes.hostsOf name =
      if name ∈ snapshot.names then
        if snapshot.gid ∈ g.nodes.hostsOf name then g.nodes.hostsOf name
        else g.nodes.hostsOf name ++ [snapshot.gid]
      else (g.nodes.hostsOf name).filter (· ≠ snapshot.gid) := by
  let start : Merge := { graph := g, summary := .none, events := [] }
  have hr := registered_ensureParticipant (m := start) h snapshot.gid
  have hp := pruned_removeStale hr.wellFormed snapshot.gid snapshot.names
  have hgid : snapshot.gid ∈
      ((start.ensureParticipant snapshot.gid).removeStale snapshot.gid
        snapshot.names).graph.participants := by
    rw [mem_participants_iff, hp.enclave?, hr.enclave?]
    simp
  have hsame : (start.ensureParticipant snapshot.gid).graph.nodes = g.nodes := by
    unfold ensureParticipant
    split <;> rfl
  have hstale := hr.wellFormed.hostsOf_removed
    (removed_removeStale hr.wellFormed snapshot.gid snapshot.names).1
    (fun _ _ => mem_staleKeys_iff_address hr.wellFormed) name
  rw [hsame] at hstale
  have hfold := hostsOf_foldl hp.wellFormed hgid snapshot.nodes name
  rw [hstale] at hfold
  change (snapshot.nodes.foldl (mergeNode snapshot)
    ((start.ensureParticipant snapshot.gid).removeStale snapshot.gid
      snapshot.names)).graph.nodes.hostsOf name = _
  rw [hfold]
  change (if name ∈ snapshot.names ∧ _ then _ else _) = _
  by_cases hname : name ∈ snapshot.names
  · by_cases hhosts : snapshot.gid ∈ g.nodes.hostsOf name <;> simp [hname, hhosts]
  · simp [hname]

end Merge

namespace Graph

variable {g a : Graph} {gid : Gid} {name : NodeName} {address other : NodeAddress}
  {commands : List Command} {command : Command}

theorem WellFormed.succession_reconcile (h : g.WellFormed) (snapshot : Snapshot)
    (name : NodeName) :
    Succession (g.nodes.hostsOf name) ((g.reconcile snapshot).graph.nodes.hostsOf name) := by
  by_cases hnodup : snapshot.names.Nodup
  · rw [reconcile_of_nodup hnodup]
    have hrun := Merge.hostsOf_run h snapshot name
    split at hrun
    · split at hrun
      · exact .of_eq hrun
      · rename_i hlacks
        exact ⟨_, List.Sublist.refl _, .inr ⟨snapshot.gid, hlacks, hrun⟩⟩
    · exact .of_sublist (hrun ▸ List.filter_sublist)
  · rw [graph_reconcile_of_repeated hnodup]
    exact .of_eq rfl

theorem WellFormed.sameNodes_addEndpoint (h : g.WellFormed) (id : EndpointId)
    (topic type : String) : SameNodes g (g.addEndpoint id topic type).graph := by
  by_cases hid : id ∈ g.endpoints
  · rw [graph_addEndpoint_of_mem hid]
    exact .refl g
  · exact (announced_addEndpoint h hid topic type).toSameNodes

theorem succession_perform (h : g.WellFormed) (command : Command) (name : NodeName) :
    Succession (g.nodes.hostsOf name) ((g.perform command).graph.nodes.hostsOf name) := by
  cases command with
  | addEndpoint id topic type =>
    exact .of_eq ((h.sameNodes_addEndpoint id topic type).hostsOf name)
  | removeEndpoint id => exact .of_eq ((forgotten_removeEndpoint g id).toSameNodes.hostsOf name)
  | addParticipant gid enclave =>
    refine .of_eq ?_
    change (g.addParticipant gid enclave).graph.nodes.hostsOf name = _
    unfold addParticipant
    split <;> rfl
  | removeParticipant gid => exact h.succession_removeParticipant gid name
  | addNode gid node => exact h.succession_addNode gid node name
  | removeNode gid node => exact h.succession_removeNode gid node name
  | associate id gid node =>
    exact .of_eq ((rewired_associate id gid node).toSameNodes.hostsOf name)
  | dissociate id gid node =>
    exact .of_eq ((rewired_dissociate id gid node).toSameNodes.hostsOf name)
  | reconcile snapshot => exact h.succession_reconcile snapshot name
  | watch => exact .of_eq rfl
  | unwatch => exact .of_eq rfl

/-! ## Runs -/

/-- At some moment of the run there was a node at the first address and none at the other one, and
the first node has been there ever since. -/
def Predates (start : Graph) (commands : List Command) (address other : NodeAddress) : Prop :=
  ∃ earlier later, commands = earlier ++ later ∧
    ¬ (start.run earlier).Hosts other.participant other.name ∧
    ∀ done, done <+: later → (start.run (earlier ++ done)).Hosts address.participant address.name

theorem run_concat (g : Graph) (commands : List Command) (command : Command) :
    g.run (commands ++ [command]) = ((g.run commands).perform command).graph := by
  rw [run, List.foldl_append]
  rfl

/-- A node that is left by a command predates what it did before. -/
theorem Predates.concat (h : Predates g commands address other)
    (hkept : (g.run (commands ++ [command])).Hosts address.participant address.name) :
    Predates g (commands ++ [command]) address other := by
  obtain ⟨earlier, later, rfl, hlacks, hhosts⟩ := h
  refine ⟨earlier, later ++ [command], List.append_assoc .., hlacks, fun done hdone => ?_⟩
  rcases List.prefix_concat_iff.mp hdone with rfl | hbefore
  · rwa [← List.append_assoc]
  · exact hhosts done hbefore

/-- A node that is left by a command predates one that the command adds. -/
theorem predates_concat (hkept : (g.run (commands ++ [command])).Hosts address.participant
      address.name) (hhosts : (g.run commands).Hosts address.participant address.name)
    (hlacks : ¬ (g.run commands).Hosts other.participant other.name) :
    Predates g (commands ++ [command]) address other := by
  refine ⟨commands, [command], rfl, hlacks, fun done hdone => ?_⟩
  have hdone' : done <+: [] ++ [command] := hdone
  rcases List.prefix_concat_iff.mp hdone' with rfl | hnil
  · exact hkept
  · rwa [List.prefix_nil.mp hnil, List.append_nil]

theorem WellFormed.hosts_iff_mem_hostsOf (h : g.WellFormed) :
    g.Hosts gid name ↔ gid ∈ g.nodes.hostsOf name := by
  rw [hosts_iff, h.mem_hostsOf_iff]

/-- The nodes of one name are in the order in which they came to be. -/
theorem pairwise_hostsOf_run (h : g.WellFormed) (hnone : g.nodes.hostsOf name = [])
    (commands : List Command) : ((g.run commands).nodes.hostsOf name).Pairwise fun gid gid' =>
      Predates g commands ⟨gid, name⟩ ⟨gid', name⟩ := by
  induction commands using List.reverseRecOn with
  | nil =>
    change (g.nodes.hostsOf name).Pairwise _
    rw [hnone]
    exact .nil
  | append_singleton commands command ih =>
    have hbefore := h.run commands
    have hafter := h.run (commands ++ [command])
    obtain ⟨kept, hkept, hcases⟩ := succession_perform hbefore command name
    rw [← run_concat] at hcases
    have hleft : ∀ gid ∈ kept, (g.run (commands ++ [command])).Hosts gid name := by
      intro gid hgid
      rw [hafter.hosts_iff_mem_hostsOf]
      rcases hcases with hsame | ⟨joined, -, hsame⟩
      · exact hsame ▸ hgid
      · exact hsame ▸ List.mem_append_left _ hgid
    have hold : kept.Pairwise fun gid gid' =>
        Predates g (commands ++ [command]) ⟨gid, name⟩ ⟨gid', name⟩ :=
      (ih.sublist hkept).imp_of_mem fun hgid _ hpredates => hpredates.concat (hleft _ hgid)
    rcases hcases with hsame | ⟨joined, hjoined, hsame⟩
    · rwa [hsame]
    · rw [hsame]
      refine List.pairwise_append.mpr
        ⟨hold, List.pairwise_singleton _ _, fun gid hgid gid' hgid' => ?_⟩
      rw [List.mem_singleton.mp hgid']
      exact predates_concat (hleft gid hgid)
        (hbefore.hosts_iff_mem_hostsOf.mpr (hkept.subset hgid))
        (mt hbefore.hosts_iff_mem_hostsOf.mp hjoined)

/-! ## The whole listing -/

/-- The addresses of all nodes, as they are listed. -/
def roster (g : Graph) : List NodeAddress :=
  g.nodes.listing.map NodeRecord.address

/-- What holds of the listing of all nodes after a run. -/
structure Rostered (start : Graph) (commands : List Command) (g : Graph)
    (roster : List NodeAddress) : Prop where
  /-- The names are those of the listed nodes, one by one. -/
  names : g.nodeNames = roster.map (·.name)
  /-- With the names come the enclaves of the participants that host the nodes. -/
  enclaves : g.nodeNamesWithEnclaves.map (fun entry => (entry.1, some entry.2)) =
    roster.map fun address => (address.name, g.enclave? address.participant)
  /-- As many nodes are listed as there are. -/
  count : roster.length = g.nodeCount
  /-- The listed nodes are those that the participants host by their own total states. -/
  complete : roster.Perm (g.participants.keys.flatMap fun gid =>
    (((g.snapshot? gid).map Snapshot.names).getD []).map (⟨gid, ·⟩))
  /-- Names are in order, and nodes of one name in the order in which they came to be. -/
  sorted : roster.Pairwise fun address other => address.name.Precedes other.name ∨
    address.name = other.name ∧ Predates start commands address other

namespace WellFormed

variable (h : g.WellFormed)
include h

theorem roster_eq : g.roster = g.nodes.hosts.toList.flatMap fun entry =>
    entry.2.map fun gid => ⟨gid, entry.1⟩ :=
  h.arena.addresses_listing

theorem hostsOf_of_mem_hosts {entry : NodeName × List Gid} (hentry : entry ∈ g.nodes.hosts.toList) :
    entry.2 = g.nodes.hostsOf entry.1 := by
  have hsome := Std.ExtTreeMap.mem_toList_iff_getElem?_eq_some.mp hentry
  rw [h.arena.getElem?_hosts] at hsome
  split at hsome
  · cases hsome
  · exact (Option.some.inj hsome).symm

theorem mem_roster : address ∈ g.roster ↔ g.Hosts address.participant address.name := by
  rw [h.hosts_iff_mem_hostsOf, h.roster_eq, List.mem_flatMap]
  constructor
  · rintro ⟨entry, hentry, hmem⟩
    obtain ⟨gid, hgid, rfl⟩ := List.mem_map.mp hmem
    rwa [h.hostsOf_of_mem_hosts hentry] at hgid
  · intro hhosts
    have hentry : g.nodes.hosts[address.name]? = some (g.nodes.hostsOf address.name) := by
      rw [h.arena.getElem?_hosts, if_neg (List.ne_nil_of_mem hhosts)]
    exact ⟨(address.name, _), Std.ExtTreeMap.mem_toList_iff_getElem?_eq_some.mpr hentry,
      List.mem_map.mpr ⟨address.participant, hhosts, rfl⟩⟩

/-- The listing is in the order of names, and in any order among the hosts of nodes of one name
that these hosts are in. -/
theorem pairwise_roster (before : NodeAddress → NodeAddress → Prop)
    (hbefore : ∀ name, (g.nodes.hostsOf name).Pairwise fun gid gid' =>
      before ⟨gid, name⟩ ⟨gid', name⟩) :
    g.roster.Pairwise fun address other => address.name.Precedes other.name ∨
      address.name = other.name ∧ before address other := by
  rw [h.roster_eq, List.pairwise_flatMap]
  constructor
  · intro entry hentry
    rw [h.hostsOf_of_mem_hosts hentry, List.pairwise_map]
    exact (hbefore entry.1).imp fun hgids => .inr ⟨rfl, hgids⟩
  · have hkeys : g.nodes.hosts.toList.Pairwise fun entry entry' =>
        compare entry.1 entry'.1 = .lt := Std.ExtTreeMap.ordered_keys_toList
    refine hkeys.imp fun hlt address haddress other hother => ?_
    obtain ⟨gid, -, rfl⟩ := List.mem_map.mp haddress
    obtain ⟨gid', -, rfl⟩ := List.mem_map.mp hother
    exact .inl (NodeName.precedes_of_compare hlt)

theorem nodup_roster : g.roster.Nodup := by
  have hsorted := h.pairwise_roster (· ≠ ·) fun name =>
    (h.nodup_hostsOf name).imp fun hne heq => hne (congrArg NodeAddress.participant heq)
  refine hsorted.imp ?_
  rintro address _ (hprecedes | ⟨-, hne⟩) rfl
  · exact hprecedes.ne rfl
  · exact hne rfl

theorem perm_roster : g.roster.Perm (g.participants.keys.flatMap fun gid =>
    (((g.snapshot? gid).map Snapshot.names).getD []).map (⟨gid, ·⟩)) := by
  have hhosts : ∀ gid name, name ∈ ((g.snapshot? gid).map Snapshot.names).getD [] ↔
      g.Hosts gid name := by
    intro gid name
    rw [getD_names_snapshot?, hosts_iff]
  refine (List.perm_ext_iff_of_nodup h.nodup_roster ?_).mpr fun address => ?_
  · refine List.nodup_flatMap.mpr ⟨fun gid _ => ?_, ?_⟩
    · rw [getD_names_snapshot?]
      exact (h.nodup_hostedNames gid).map fun name name' heq => congrArg NodeAddress.name heq
    · refine Std.ExtTreeMap.nodup_keys.imp fun hne address haddress hother => ?_
      obtain ⟨name, -, rfl⟩ := List.mem_map.mp haddress
      obtain ⟨name', -, heq⟩ := List.mem_map.mp hother
      exact hne (congrArg NodeAddress.participant heq).symm
  · rw [h.mem_roster, List.mem_flatMap]
    constructor
    · intro hhosted
      obtain ⟨state, hstate, -⟩ := id hhosted
      have hgid : address.participant ∈ g.participants :=
        isSome_snapshot?_iff.mp (by rw [hstate]; rfl)
      exact ⟨address.participant, Std.ExtTreeMap.mem_keys.mpr hgid,
        List.mem_map.mpr ⟨address.name, (hhosts _ _).mpr hhosted, rfl⟩⟩
    · rintro ⟨gid, -, hmem⟩
      obtain ⟨name, hname, rfl⟩ := List.mem_map.mp hmem
      exact (hhosts gid name).mp hname

theorem enclaves_roster : g.nodeNamesWithEnclaves.map (fun entry => (entry.1, some entry.2)) =
    g.roster.map fun address => (address.name, g.enclave? address.participant) := by
  rw [nodeNamesWithEnclaves, roster, List.map_map, List.map_map]
  refine List.map_congr_left fun node hnode => ?_
  obtain ⟨state, hstate, -⟩ := h.mem_roster.mp (List.mem_map_of_mem hnode)
  have hknown : node.participant ∈ g.participants :=
    isSome_snapshot?_iff.mp (Option.isSome_iff_exists.mpr ⟨state, hstate⟩)
  obtain ⟨enclave, henclave⟩ := Option.isSome_iff_exists.mp (mem_participants_iff.mp hknown)
  change (node.name, some ((g.enclave? node.participant).getD "")) =
    (node.name, g.enclave? node.participant)
  rw [henclave, Option.getD_some]

end WellFormed

/-- After every run from a graph without content, the listing of all nodes is complete and in
order, and nodes of one name stand in the order in which they came to be, whichever slots they
are in. -/
theorem rostered_run (policy : SlotPolicy) (prefs : Prefs) (commands : List Command) :
    let g := (emptyWith policy prefs).run commands
    Rostered (emptyWith policy prefs) commands g g.roster := by
  intro g
  have hstart := wellFormed_emptyWith policy prefs
  have h : g.WellFormed := hstart.run commands
  have hnone : ∀ name, (emptyWith policy prefs).nodes.hostsOf name = [] := by
    intro name
    simp [emptyWith, NodeArena.empty, NodeArena.hostsOf, NodeArena.hostsAt, NodeArena.keysOf]
  exact {
    names := by rw [nodeNames, roster, List.map_map]; rfl
    enclaves := h.enclaves_roster
    count := by rw [h.nodeCount_eq, nodeNames, roster, List.length_map, List.length_map]
    complete := h.perm_roster
    sorted := h.pairwise_roster _ fun name => pairwise_hostsOf_run hstart (hnone name) commands }

/-- A node that is added again takes over the slot that its predecessor gave back. This slot is
lower than that of the other node, but the other node is older and is listed first. -/
example : let gid (n : UInt8) : Gid := ⟨Vector.replicate gidWidth n⟩
    let node : NodeName := { ns := "", name := "n" }
    ((emptyWith .recycle default).run [.addParticipant (gid 1) "", .addParticipant (gid 2) "",
      .addNode (gid 1) node, .addNode (gid 2) node, .removeNode (gid 1) node,
      .addNode (gid 1) node]).roster = [⟨gid 2, node⟩, ⟨gid 1, node⟩] := by
  decide +kernel

end Graph

end DiscoveryGraph
