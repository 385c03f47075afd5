import DiscoveryGraph.Proofs.Alike
import DiscoveryGraph.Proofs.Requests

/-!
# Snapshots of different participants

Two snapshots for different participants that have no endpoint in common may be merged in either
order. The slots of new nodes then differ, and an endpoint may go from one participant to the other
directly or by way of belonging to nobody; what the graph holds in the end is the same.

* `Snapshot.takes_comm`: the place of one endpoint.
* `Merge.Converged.sameContent`: the whole graph.
* `reconcile_comm`: what can be seen of it.
-/

namespace DiscoveryGraph

open DiscoveryGraph.Graph

/-- What a merge makes of the place of an endpoint. One that the snapshot lists and that is `ready`
goes to the node that lists it first, any other leaves the participant. -/
def Snapshot.takes (snapshot : Snapshot) (ready : Prop) [Decidable ready] (id : EndpointId)
    (before : Option NodeAddress) : Option NodeAddress :=
  if ready ∧ (snapshot.owner? id).isSome then (snapshot.owner? id).map (⟨snapshot.gid, ·⟩)
  else before.filter (·.participant ≠ snapshot.gid)

variable {s t : Snapshot} {id : EndpointId}

namespace Snapshot

variable {ready : Prop} [Decidable ready] {before : Option NodeAddress} {name : NodeName}

theorem takes_of_owner? (hready : ready) (howner : s.owner? id = some name) :
    s.takes ready id before = some ⟨s.gid, name⟩ := by
  rw [takes, howner, if_pos ⟨hready, rfl⟩, Option.map_some]

theorem takes_of_not (h : ¬ (ready ∧ (s.owner? id).isSome)) :
    s.takes ready id before = before.filter (·.participant ≠ s.gid) :=
  if_neg h

/-- What one snapshot has placed the other one leaves alone. -/
theorem takes_takes_of_owner? (hgid : s.gid ≠ t.gid) (hready : ready)
    (howner : s.owner? id = some name) (hfree : t.owner? id = none) :
    t.takes ready id (s.takes ready id before) = s.takes ready id (t.takes ready id before) := by
  rw [takes_of_owner? hready howner, takes_of_owner? hready howner, takes_of_not (by simp [hfree]),
    Option.filter_some, if_pos (by simpa using hgid)]

/-- What neither snapshot places leaves both participants. -/
theorem takes_takes_of_not (hs : ¬ (ready ∧ (s.owner? id).isSome))
    (ht : ¬ (ready ∧ (t.owner? id).isSome)) :
    t.takes ready id (s.takes ready id before) = s.takes ready id (t.takes ready id before) := by
  rw [takes_of_not hs, takes_of_not hs, takes_of_not ht, takes_of_not ht, Option.filter_filter,
    Option.filter_filter]
  simp only [Bool.and_comm]

theorem takes_comm (hgid : s.gid ≠ t.gid) (hdisjoint : s.Lists id → ¬ t.Lists id) :
    t.takes ready id (s.takes ready id before) = s.takes ready id (t.takes ready id before) := by
  by_cases hready : ready
  · cases howner : s.owner? id with
    | some name =>
      have hfree : t.owner? id = none := by
        simpa [← isSome_owner?_iff] using hdisjoint (lists_of_owner? howner)
      exact takes_takes_of_owner? hgid hready howner hfree
    | none =>
      cases howner' : t.owner? id with
      | some name => exact (takes_takes_of_owner? hgid.symm hready howner' howner).symm
      | none => exact takes_takes_of_not (by simp [howner]) (by simp [howner'])
  · exact takes_takes_of_not (fun h => hready h.1) fun h => hready h.1

end Snapshot

namespace Merge.Converged

variable {g a b ab ba : Graph}

/-- Two merges arrive at the same content in either order. -/
theorem sameContent (ha : Converged g s a) (hab : Converged a t ab) (hb : Converged g t b)
    (hba : Converged b s ba) (hgid : s.gid ≠ t.gid) (hdisjoint : ∀ id, s.Lists id → ¬ t.Lists id) :
    SameContent ba ab where
  toKeeps := (hb.keeps.trans hba.keeps).symm.trans (ha.keeps.trans hab.keeps)
  wellFormed := hba.wellFormed
  wellFormed' := hab.wellFormed
  enclave? owner := by
    rw [hab.enclave?, ha.enclave?, hba.enclave?, hb.enclave?]
    by_cases hs : owner = s.gid
    · simp [hs, hgid]
    · simp [hs]
  hostedNames owner := by
    rw [hab.hostedNames, ha.hostedNames, hba.hostedNames, hb.hostedNames]
    by_cases hs : owner = s.gid
    · simp [hs, hgid]
    · simp [hs]
  home? id := by
    have hplace : ab.home? id =
        t.takes (id ∈ g.endpoints) id (s.takes (id ∈ g.endpoints) id (g.home? id)) := by
      simp only [hab.home?, ha.home?, ha.keeps.mem_endpoints]
      rfl
    have hplace' : ba.home? id =
        s.takes (id ∈ g.endpoints) id (t.takes (id ∈ g.endpoints) id (g.home? id)) := by
      simp only [hba.home?, hb.home?, hb.keeps.mem_endpoints]
      rfl
    rw [hplace, hplace', Snapshot.takes_comm hgid (hdisjoint id)]
  awaiting? id := by
    have hplace : ab.awaiting? id =
        t.takes (g.MayWait id) id (s.takes (g.MayWait id) id (g.awaiting? id)) := by
      simp only [hab.awaiting?, ha.awaiting?, ha.keeps.mayWait]
      rfl
    have hplace' : ba.awaiting? id =
        s.takes (g.MayWait id) id (t.takes (g.MayWait id) id (g.awaiting? id)) := by
      simp only [hba.awaiting?, hb.awaiting?, hb.keeps.mayWait]
      rfl
    rw [hplace, hplace', Snapshot.takes_comm hgid (hdisjoint id)]

end Merge.Converged

namespace Graph

variable {g : Graph}

theorem WellFormed.sameContent_reconcile (h : g.WellFormed) (hgid : s.gid ≠ t.gid)
    (hdisjoint : ∀ id, s.Lists id → ¬ t.Lists id) :
    SameContent ((g.reconcile t).graph.reconcile s).graph
      ((g.reconcile s).graph.reconcile t).graph := by
  -- A snapshot that is refused changes nothing, whenever it comes.
  by_cases hs : s.names.Nodup
  · by_cases ht : t.names.Nodup
    · simp only [reconcile_of_nodup hs, reconcile_of_nodup ht]
      have ha := Merge.converged_run h hs
      have hb := Merge.converged_run h ht
      exact ha.sameContent (Merge.converged_run ha.wellFormed ht) hb
        (Merge.converged_run hb.wellFormed hs) hgid hdisjoint
    · rw [graph_reconcile_of_repeated ht, graph_reconcile_of_repeated ht]
      exact (Alike.refl (h.reconcile s)).toSameContent
  · rw [graph_reconcile_of_repeated hs, graph_reconcile_of_repeated hs]
    exact (Alike.refl (h.reconcile t)).toSameContent

/-- Two snapshots for different participants that have no endpoint in common may be merged in
either order. Each of them is refused in both orders or in none, for the same reason. Afterwards
the endpoints are at home at the same nodes, the same nodes wait for the same endpoints, and all
queries have the same answers but one: the names with enclaves show the order in which the two
participants have got nodes of one name. -/
theorem reconcile_comm (hg : g.Reachable) (hgid : s.gid ≠ t.gid)
    (hdisjoint : ∀ id, s.Lists id → ¬ t.Lists id) :
    let st := (g.reconcile s).graph.reconcile t
    let ts := (g.reconcile t).graph.reconcile s
    (∀ error, (g.reconcile s).result = .error error ↔ ts.result = .error error) ∧
    (∀ error, (g.reconcile t).result = .error error ↔ st.result = .error error) ∧
    (∀ id, st.graph.home? id = ts.graph.home? id) ∧
    st.graph.awaited = ts.graph.awaited ∧
    ∀ query, query ≠ .nodeNamesWithEnclaves → st.graph.ask query = ts.graph.ask query := by
  intro st ts
  have hsame := hg.wellFormed.sameContent_reconcile hgid hdisjoint
  refine ⟨fun error => ?_, fun error => ?_, hsame.home?, hsame.awaited, fun _ => hsame.ask⟩
  · rw [result_reconcile_eq_error_iff, result_reconcile_eq_error_iff]
  · rw [result_reconcile_eq_error_iff, result_reconcile_eq_error_iff]

/-- One snapshot takes a reader, and the other one drops the node that has it so far. -/
theorem reconcile_comm_taken :
    let one : Gid := ⟨.replicate gidWidth 1⟩
    let g := (emptyWith .recycle .standard).run
      [.addEndpoint ⟨.reader, .zero⟩ "t" "T", .reconcile ⟨one, [⟨⟨"/", "a"⟩, [.zero], []⟩]⟩]
    let s : Snapshot := ⟨.zero, [⟨⟨"/", "b"⟩, [.zero], []⟩]⟩
    let t : Snapshot := ⟨one, [⟨⟨"/", "b"⟩, [], [.zero]⟩]⟩
    (s.gid ≠ t.gid ∧ ∀ id, s.Lists id → ¬ t.Lists id) ∧
      ((g.reconcile t).graph.reconcile s).graph.home? ⟨.reader, .zero⟩ =
        some ⟨.zero, ⟨"/", "b"⟩⟩ := by
  intro one g s t
  have hg : g.Reachable := ⟨_, _, _, rfl⟩
  have hgid : s.gid ≠ t.gid := by decide
  have hdisjoint : ∀ id, s.Lists id → ¬ t.Lists id := by
    rintro ⟨kind, gid⟩
    cases kind <;> simp [Snapshot.Lists, NodeEntities.ids, s, t]
  obtain ⟨-, -, hhome, -, -⟩ := reconcile_comm hg hgid hdisjoint
  refine ⟨⟨hgid, hdisjoint⟩, (hhome _).symm.trans ?_⟩
  simp only [g, s, t, one]
  decide +kernel

end Graph

end DiscoveryGraph
