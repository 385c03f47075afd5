import DiscoveryGraph.Proofs.Counting

/-!
# Associations that a merge takes away

The nodes that a snapshot lists lose endpoints, and the summary counts those that leave a node when
it is brought into line. An endpoint that goes to a node which the snapshot lists further ahead has
been taken away by then, and is not counted. Such endpoints are `overtaken`; they are the whole
difference between what is counted and what is `lost`.

* `Merge.Converged.card_lost`: what listed nodes lose, by the order of the nodes.
* `Merge.Converged.associationCount_add`: how many associations there are afterwards.
* `reconcile_removed_iff`: every accepted snapshot.
-/

namespace DiscoveryGraph

open DiscoveryGraph.Graph

namespace Graph

variable {g g' : Graph} {snapshot : Snapshot} {id : EndpointId} {gid : Gid} {names : List NodeName}

/-- The endpoints at home at the node with this address. -/
def residents (g : Graph) (address : NodeAddress) : Finset EndpointId :=
  {id ∈ g.known | g.home? id = some address}

/-- How many associations some nodes of a participant have. -/
def associationCount (g : Graph) (gid : Gid) (names : List NodeName) : Nat :=
  (names.map fun name => (g.residents ⟨gid, name⟩).card).sum

/-- The endpoints that have been at home at a node which the snapshot lists, and are not
afterwards. -/
def lost (g : Graph) (snapshot : Snapshot) (after : Graph) : Finset EndpointId :=
  {id ∈ g.known | ∃ name ∈ snapshot.names, g.home? id = some ⟨snapshot.gid, name⟩ ∧
    after.home? id ≠ some ⟨snapshot.gid, name⟩}

/-- The endpoints that have gone from one node which the snapshot lists to another one that it
lists further ahead. -/
def overtaken (g : Graph) (snapshot : Snapshot) (after : Graph) : Finset EndpointId :=
  {id ∈ g.known | ∃ old ∈ snapshot.names, ∃ new ∈ snapshot.names,
    g.home? id = some ⟨snapshot.gid, old⟩ ∧ after.home? id = some ⟨snapshot.gid, new⟩ ∧
      [new, old].Sublist snapshot.names}

/-! ## Associations in number -/

/-- The endpoints at home at some nodes of a participant. -/
def settlers (g : Graph) (gid : Gid) (names : List NodeName) : Finset EndpointId :=
  {id ∈ g.known | ∃ name ∈ names, g.home? id = some ⟨gid, name⟩}

theorem mem_residents {address : NodeAddress} :
    id ∈ g.residents address ↔ g.home? id = some address := by
  rw [residents, Finset.mem_filter, mem_known]
  exact and_iff_right_of_imp mem_endpoints_of_home?

theorem mem_settlers : id ∈ g.settlers gid names ↔
    ∃ name ∈ names, g.home? id = some ⟨gid, name⟩ := by
  rw [settlers, Finset.mem_filter, mem_known]
  exact and_iff_right_of_imp fun ⟨_, _, hhome⟩ => mem_endpoints_of_home? hhome

theorem card_settlers (g : Graph) (gid : Gid) (hnodup : names.Nodup) :
    (g.settlers gid names).card = g.associationCount gid names := by
  induction names with
  | nil => simp [settlers, associationCount]
  | cons name names ih =>
    obtain ⟨hname, hnodup⟩ := List.nodup_cons.mp hnodup
    have hfirst : (g.settlers gid (name :: names)).card =
        (g.residents ⟨gid, name⟩).card + (g.settlers gid names).card := by
      refine card_eq_add (fun id => ?_) fun id hfirst hrest => ?_
      · simp only [mem_residents, mem_settlers, List.exists_mem_cons_iff]
      · obtain ⟨other, hother, hhome⟩ := mem_settlers.mp hrest
        have hsame : name = other := name_eq_of_home? (mem_residents.mp hfirst) hhome
        exact hname (hsame ▸ hother)
    rw [hfirst, ih hnodup]
    rfl

end Graph

/-! ## What listed nodes lose and get -/

namespace Merge.Converged

variable {g g' : Graph} {snapshot : Snapshot} {id : EndpointId}

theorem mem_lost (hc : Converged g snapshot g') : id ∈ g.lost snapshot g' ↔
    ∃ name ∈ snapshot.names, g.home? id = some ⟨snapshot.gid, name⟩ ∧
      snapshot.owner? id ≠ some name := by
  rw [lost, Finset.mem_filter, mem_known]
  constructor
  · rintro ⟨hknown, name, hname, hhome, hleft⟩
    refine ⟨name, hname, hhome, fun howner => hleft ?_⟩
    exact hc.home?_eq_some_iff.mpr ⟨howner, hknown⟩
  · rintro ⟨name, hname, hhome, howner⟩
    refine ⟨mem_endpoints_of_home? hhome, name, hname, hhome, fun hstays => howner ?_⟩
    exact (hc.home?_eq_some_iff.mp hstays).1

theorem mem_overtaken (hc : Converged g snapshot g') : id ∈ g.overtaken snapshot g' ↔
    ∃ name ∈ snapshot.names, g.home? id = some ⟨snapshot.gid, name⟩ ∧
      ∃ owner, snapshot.owner? id = some owner ∧ [owner, name].Sublist snapshot.names := by
  rw [overtaken, Finset.mem_filter, mem_known]
  constructor
  · rintro ⟨-, old, hold, new, -, hhome, hafter, hahead⟩
    exact ⟨old, hold, hhome, new, (hc.home?_eq_some_iff.mp hafter).1, hahead⟩
  · rintro ⟨old, hold, hhome, new, howner, hahead⟩
    have hknown := mem_endpoints_of_home? hhome
    exact ⟨hknown, old, hold, new, Snapshot.mem_names_of_owner? howner, hhome,
      hc.home?_eq_some_iff.mpr ⟨howner, hknown⟩, hahead⟩

/-- What the listed nodes lose is counted, unless it is overtaken. -/
theorem card_lost (hc : Converged g snapshot g') (hnodup : snapshot.names.Nodup) :
    (g.lost snapshot g').card =
      (snapshot.leaving snapshot.names g).card + (g.overtaken snapshot g').card := by
  refine card_eq_add (fun id => ?_) fun id hleaves hovertaken => ?_
  · rw [Snapshot.mem_leaving, hc.mem_overtaken, hc.mem_lost, ← exists_or]
    refine exists_congr fun name => ?_
    rw [← and_or_left, ← and_or_left]
    refine and_congr_right fun _ => and_congr_right fun _ => ?_
    cases howner : snapshot.owner? id with
    | none => simp
    | some owner =>
      -- A node does not stand ahead of itself.
      have hne : [owner, name].Sublist snapshot.names → owner ≠ name :=
        fun hahead => by simpa using hahead.nodup hnodup
      simp only [Option.some.injEq, forall_eq', exists_eq_left', ne_eq]
      tauto
  · obtain ⟨name, -, hhome, hbehind⟩ := Snapshot.mem_leaving.mp hleaves
    obtain ⟨old, -, hhome', owner, howner, hahead⟩ := hc.mem_overtaken.mp hovertaken
    have hsame : name = old := name_eq_of_home? hhome hhome'
    exact (hbehind owner howner).2 (hsame ▸ hahead)

theorem mem_settlers (hc : Converged g snapshot g') :
    id ∈ g'.settlers snapshot.gid snapshot.names ↔ id ∈ g.endpoints ∧ snapshot.Lists id := by
  rw [Graph.mem_settlers, ← Snapshot.isSome_owner?_iff]
  simp only [hc.home?_eq_some_iff]
  constructor
  · rintro ⟨name, -, howner, hknown⟩
    simp [howner, hknown]
  · rintro ⟨hknown, hlisted⟩
    obtain ⟨name, howner⟩ := Option.isSome_iff_exists.mp hlisted
    exact ⟨name, Snapshot.mem_names_of_owner? howner, howner, hknown⟩

/-- What the listed nodes have afterwards and was not in place before was due there. -/
theorem filter_settlers_eq_due (hc : Converged g snapshot g') :
    {id ∈ g'.settlers snapshot.gid snapshot.names | ¬ g.home? id = snapshot.target? id} =
      snapshot.due snapshot.names (· ∈ g.endpoints) g.home? := by
  ext id
  simp only [Snapshot.due_names, Finset.mem_filter, hc.mem_settlers, Snapshot.mem_ids]
  tauto

/-- What the listed nodes had before and was not in place is lost. -/
theorem filter_settlers_eq_lost (hc : Converged g snapshot g') :
    {id ∈ g.settlers snapshot.gid snapshot.names | ¬ g.home? id = snapshot.target? id} =
      g.lost snapshot g' := by
  ext id
  rw [Finset.mem_filter, Graph.mem_settlers, hc.mem_lost]
  constructor
  · rintro ⟨⟨name, hname, hhome⟩, hplace⟩
    refine ⟨name, hname, hhome, fun howner => hplace ?_⟩
    rw [hhome, Snapshot.target?_eq_some_iff.mpr howner]
  · rintro ⟨name, hname, hhome, howner⟩
    refine ⟨⟨name, hname, hhome⟩, fun hplace => howner ?_⟩
    exact Snapshot.target?_eq_some_iff.mp (hplace.symm.trans hhome)

/-- What was in place before is there afterwards, and the other way round. -/
theorem filter_settlers_congr (hc : Converged g snapshot g') :
    {id ∈ g'.settlers snapshot.gid snapshot.names | g.home? id = snapshot.target? id} =
      {id ∈ g.settlers snapshot.gid snapshot.names | g.home? id = snapshot.target? id} := by
  ext id
  rw [Finset.mem_filter, Finset.mem_filter, hc.mem_settlers, Graph.mem_settlers]
  refine and_congr_left fun hplace => ?_
  simp only [hplace, Snapshot.target?_eq_some_iff]
  constructor
  · rintro ⟨-, hlisted⟩
    obtain ⟨name, howner⟩ := Option.isSome_iff_exists.mp (Snapshot.isSome_owner?_iff.mpr hlisted)
    exact ⟨name, Snapshot.mem_names_of_owner? howner, howner⟩
  · rintro ⟨name, -, howner⟩
    have hhome : g.home? id = some ⟨snapshot.gid, name⟩ :=
      hplace.trans (Snapshot.target?_eq_some_iff.mpr howner)
    exact ⟨mem_endpoints_of_home? hhome, Snapshot.lists_of_owner? howner⟩

/-- The associations of the listed nodes change by those that they get and those that they lose. -/
theorem associationCount_add (hc : Converged g snapshot g') (hnodup : snapshot.names.Nodup) :
    g'.associationCount snapshot.gid snapshot.names + (g.lost snapshot g').card =
      g.associationCount snapshot.gid snapshot.names +
        (snapshot.due snapshot.names (· ∈ g.endpoints) g.home?).card := by
  have hafter := Finset.card_filter_add_card_filter_not
    (s := g'.settlers snapshot.gid snapshot.names) fun id => g.home? id = snapshot.target? id
  have hbefore := Finset.card_filter_add_card_filter_not
    (s := g.settlers snapshot.gid snapshot.names) fun id => g.home? id = snapshot.target? id
  rw [hc.filter_settlers_congr, hc.filter_settlers_eq_due, card_settlers g' _ hnodup] at hafter
  rw [hc.filter_settlers_eq_lost, card_settlers g _ hnodup] at hbefore
  omega

end Merge.Converged

namespace Graph

variable {g : Graph} {snapshot : Snapshot} {summary : Summary}

/-- The removed associations of the summary, together with the overtaken ones, are those that the
listed nodes have lost, and the associations of these nodes change by those that are added and
those that are lost. So the summary counts what is lost, and the associations change by what it
says, exactly if the snapshot moves no endpoint to a node that it lists ahead of the one that the
endpoint comes from. -/
theorem reconcile_removed_iff (hg : g.Reachable)
    (haccepted : (g.reconcile snapshot).result = .ok summary) :
    let after := (g.reconcile snapshot).graph
    let lost := g.lost snapshot after
    let overtaken := g.overtaken snapshot after
    let count (g : Graph) := g.associationCount snapshot.gid snapshot.names
    summary.associationsRemoved + overtaken.card = lost.card ∧
      count after + lost.card = count g + summary.associationsAdded ∧
      (summary.associationsRemoved = lost.card ↔ overtaken = ∅) ∧
      (count after + summary.associationsRemoved = count g + summary.associationsAdded ↔
        overtaken = ∅) := by
  intro after lost overtaken count
  obtain ⟨hnodup, rfl⟩ := reconcile_eq_ok_iff.mp haccepted
  have h := hg.wellFormed
  have hgraph : after = (Merge.run g snapshot).graph := graph_reconcile haccepted
  have hc : Merge.Converged g snapshot after := hgraph ▸ Merge.converged_run h hnodup
  have hsummary := Merge.summary_run h hnodup
  have hlost : (Merge.run g snapshot).summary.associationsRemoved + overtaken.card =
      lost.card := by
    rw [hsummary]
    exact (hc.card_lost hnodup).symm
  have hcount : count after + lost.card =
      count g + (Merge.run g snapshot).summary.associationsAdded := by
    rw [hsummary]
    exact hc.associationCount_add hnodup
  refine ⟨hlost, hcount, ?_, ?_⟩
  · rw [← Finset.card_eq_zero]
    omega
  · rw [← Finset.card_eq_zero]
    omega

/-- A reader moves to the node that is listed first. It is added there and has been lost by the
other node, and yet nothing is removed according to the summary. -/
theorem reconcile_removed_iff_swapped :
    let g := (emptyWith .recycle .standard).run
      [.addEndpoint ⟨.reader, .zero⟩ "t" "T",
        .reconcile ⟨.zero, [⟨⟨"/", "a"⟩, [.zero], []⟩, ⟨⟨"/", "b"⟩, [], []⟩]⟩]
    let snapshot : Snapshot := ⟨.zero, [⟨⟨"/", "b"⟩, [.zero], []⟩, ⟨⟨"/", "a"⟩, [], []⟩]⟩
    let after := (g.reconcile snapshot).graph
    (g.reconcile snapshot).result = .ok ⟨false, 0, 0, 1, 0, 0⟩ ∧
      (g.lost snapshot after).card = 1 ∧
      after.associationCount snapshot.gid snapshot.names ≠
        g.associationCount snapshot.gid snapshot.names + 1 := by
  intro g snapshot after
  have hg : g.Reachable := ⟨_, _, _, rfl⟩
  have hsummary : (Merge.run g snapshot).summary = ⟨false, 0, 0, 1, 0, 0⟩ := by
    simp only [g, snapshot]
    decide +kernel
  have haccepted : (g.reconcile snapshot).result = .ok ⟨false, 0, 0, 1, 0, 0⟩ :=
    reconcile_eq_ok_iff.mpr ⟨by decide, hsummary⟩
  have hovertaken : (g.overtaken snapshot after).card = 1 := by
    simp only [g, snapshot, after]
    decide +kernel
  obtain ⟨hlost, -, -, hbalance⟩ := reconcile_removed_iff hg haccepted
  dsimp only at hlost hbalance
  rw [Nat.zero_add] at hlost
  rw [Nat.add_zero] at hbalance
  refine ⟨haccepted, hlost.symm.trans hovertaken, fun hsame => ?_⟩
  rw [hbalance.mp hsame] at hovertaken
  cases hovertaken

end Graph

end DiscoveryGraph
