import DiscoveryGraph.Proofs.Announcement
import DiscoveryGraph.Proofs.Agreement

/-!
# What a merge leaves alone

A merge writes into tables that also hold the data of all other participants. It removes nodes and
creates others in the slots that become free, and it takes listed endpoints away from whichever
node has them.

* `leavesOthers_run`: the nodes of other participants stay in their slots.
* `Converged.snapshot?_of_ne`: another participant loses the listed endpoints, and nothing else.
* `reconcile_frame`: all that stays, and what becomes of the rest.
-/

namespace DiscoveryGraph

open DiscoveryGraph.Graph

namespace Graph

variable {g g' g'' : Graph} {gid owner : Gid} {key : NodeKey} {id : EndpointId} {name : NodeName}

/-! ## The nodes of other participants -/

/-- All participants but `gid` host the same nodes, in the same slots. -/
structure LeavesOthers (gid : Gid) (g g' : Graph) : Prop where
  hosted : ∀ owner, owner ≠ gid → g'.hosted owner = g.hosted owner
  address?_iff : ∀ (key : NodeKey) (address : NodeAddress), address.participant ≠ gid →
    (g'.nodes.address? key = some address ↔ g.nodes.address? key = some address)

theorem SameNodes.leavesOthers (h : SameNodes g g') (gid : Gid) : LeavesOthers gid g g' where
  hosted owner _ := h.hosted owner
  address?_iff key address _ := by rw [h.address?]

namespace LeavesOthers

theorem refl (gid : Gid) (g : Graph) : LeavesOthers gid g g :=
  (SameNodes.refl g).leavesOthers gid

theorem trans (h : LeavesOthers gid g g') (h' : LeavesOthers gid g' g'') :
    LeavesOthers gid g g'' where
  hosted owner howner := (h'.hosted owner howner).trans (h.hosted owner howner)
  address?_iff key address hother :=
    (h'.address?_iff key address hother).trans (h.address?_iff key address hother)

/-- An endpoint that stays at home at a node of another participant stays in its slot. -/
theorem link? (h : LeavesOthers gid g g') (hwf' : g'.WellFormed) {address : NodeAddress}
    (hother : address.participant ≠ gid) (hhome : g.home? id = some address)
    (hhome' : g'.home? id = some address) : g'.link? id = g.link? id := by
  obtain ⟨key, hlink, haddress⟩ := Option.bind_eq_some_iff.mp hhome
  rw [hlink]
  exact hwf'.link?_eq_some_iff.mpr ⟨address, (h.address?_iff key address hother).mpr haddress, hhome'⟩

end LeavesOthers

theorem leavesOthers_removeNodeAt (h : g.WellFormed)
    (hkey : ∀ address, g.nodes.address? key = some address → address.participant = gid) :
    LeavesOthers gid g (g.removeNodeAt gid key) where
  hosted owner howner := by rw [hosted_removeNodeAt, if_neg (Ne.symm howner)]
  address?_iff other address hother := by
    rw [(vacated_removeNodeAt h.toConsistent gid key).address?]
    by_cases hsame : other = key
    · subst hsame
      simpa using fun haddress => hother (hkey address haddress)
    · simp [hsame]

theorem leavesOthers_insertNode (h : g.WellFormed) (hgid : gid ∈ g.participants) :
    LeavesOthers gid g (g.insertNode gid name).2 where
  hosted owner howner := by rw [hosted_insertNode hgid, if_neg (Ne.symm howner)]
  address?_iff key address hother := by
    rw [address?_insertNode]
    by_cases hkey : (g.insertNode gid name).1 = key
    · rw [if_pos hkey, ← hkey, h.vacant_insertNode]
      simpa using fun heq => hother (congrArg NodeAddress.participant heq).symm
    · rw [if_neg hkey]

end Graph

/-! ## The steps of a merge -/

namespace Merge

variable {m : Merge} {g : Graph} {snapshot : Snapshot} {gid : Gid} {name : NodeName}

theorem leavesOthers_ensureParticipant (m : Merge) (gid : Gid) :
    LeavesOthers gid m.graph (m.ensureParticipant gid).graph := by
  unfold ensureParticipant
  by_cases hgid : gid ∈ m.graph.participants
  · rw [if_pos hgid]
    exact .refl gid m.graph
  · rw [if_neg hgid]
    exact ⟨fun owner _ => hosted_insertParticipant hgid "" owner, fun _ _ _ => .rfl⟩

theorem leavesOthers_foldl_removeNodeAt (h : g.WellFormed) (gid : Gid) (keys : List NodeKey)
    (hkeys : ∀ key ∈ keys, ∀ address, g.nodes.address? key = some address →
      address.participant = gid) :
    LeavesOthers gid g (keys.foldl (Graph.removeNodeAt · gid) g) := by
  induction keys generalizing g with
  | nil => exact .refl gid g
  | cons key keys ih =>
    have hkey := hkeys key List.mem_cons_self
    refine (leavesOthers_removeNodeAt h hkey).trans (ih (h.removeNodeAt hkey) ?_)
    intro other hother address haddress
    rw [(vacated_removeNodeAt h.toConsistent gid key).address?] at haddress
    split at haddress
    · cases haddress
    · exact hkeys other (List.mem_cons_of_mem _ hother) address haddress

theorem leavesOthers_removeStale (h : m.graph.WellFormed) (gid : Gid) (names : List NodeName) :
    LeavesOthers gid m.graph (m.removeStale gid names).graph := by
  rw [removeStale, graph_foldl_removeNode]
  exact leavesOthers_foldl_removeNodeAt h gid _ fun _ => participant_of_mem_staleKeys h

theorem leavesOthers_ensureNode (h : m.graph.WellFormed) (hgid : gid ∈ m.graph.participants)
    (name : NodeName) : LeavesOthers gid m.graph (m.ensureNode gid name).2.graph := by
  unfold ensureNode
  cases m.graph.nodes.find? gid name with
  | some key => exact .refl gid m.graph
  | none => exact leavesOthers_insertNode h hgid

theorem leavesOthers_foldl (h : m.graph.WellFormed) (hgid : snapshot.gid ∈ m.graph.participants)
    (entries : List NodeEntities) :
    LeavesOthers snapshot.gid m.graph (entries.foldl (mergeNode snapshot) m).graph := by
  induction entries generalizing m with
  | nil => exact .refl snapshot.gid m.graph
  | cons entry entries ih =>
    have hs := settled_mergeNode h hgid entry
    have hfirst : LeavesOthers snapshot.gid m.graph (mergeNode snapshot m entry).graph :=
      (leavesOthers_ensureNode h hgid entry.node).trans (hs.rewired.leavesOthers snapshot.gid)
    exact hfirst.trans (ih hs.wellFormed (mem_participants_mergeNode h hgid entry))

/-- A merge leaves the nodes of other participants in their slots. -/
theorem leavesOthers_run (h : g.WellFormed) (snapshot : Snapshot) :
    LeavesOthers snapshot.gid g (run g snapshot).graph := by
  let start : Merge := { graph := g, summary := .none, events := [] }
  have hr := registered_ensureParticipant (m := start) h snapshot.gid
  have hp := pruned_removeStale hr.wellFormed snapshot.gid snapshot.names
  have hknown : snapshot.gid ∈
      ((start.ensureParticipant snapshot.gid).removeStale snapshot.gid
        snapshot.names).graph.participants := by
    rw [mem_participants_iff, hp.enclave?, hr.enclave?]
    simp
  have hhosted := leavesOthers_ensureParticipant start snapshot.gid
  have hpruned := leavesOthers_removeStale hr.wellFormed snapshot.gid snapshot.names
  exact (hhosted.trans hpruned).trans (leavesOthers_foldl hp.wellFormed hknown snapshot.nodes)

end Merge

/-! ## What other participants lose -/

/-- The node without the endpoints that a snapshot lists. -/
def NodeEntities.without (entry : NodeEntities) (snapshot : Snapshot) : NodeEntities where
  node := entry.node
  readers := entry.readers.filter fun gid => ¬ snapshot.Lists ⟨.reader, gid⟩
  writers := entry.writers.filter fun gid => ¬ snapshot.Lists ⟨.writer, gid⟩

/-- The participant without the endpoints that another snapshot lists. -/
def Snapshot.without (state snapshot : Snapshot) : Snapshot where
  gid := state.gid
  nodes := state.nodes.map (·.without snapshot)

@[simp] theorem NodeEntities.listed_without (entry : NodeEntities) (snapshot : Snapshot)
    (kind : EndpointKind) : (entry.without snapshot).listed kind =
      (entry.listed kind).filter fun gid => ¬ snapshot.Lists ⟨kind, gid⟩ := by
  cases kind <;> rfl

@[simp] theorem Snapshot.names_without (state snapshot : Snapshot) :
    (state.without snapshot).names = state.names := by
  simp [names, without, NodeEntities.without]

namespace Merge.Converged

variable {g g' : Graph} {snapshot : Snapshot} {gid : Gid} {id : EndpointId} {address : NodeAddress}
  (h : Converged g snapshot g')
include h

/-- What is at home at a node of another participant is what was so and is not listed. -/
theorem home?_eq_some_iff_of_ne (hother : address.participant ≠ snapshot.gid) :
    g'.home? id = some address ↔ g.home? id = some address ∧ ¬ snapshot.Lists id := by
  rw [h.home?, ← Snapshot.isSome_owner?_iff]
  split
  · rename_i htaken
    obtain ⟨name, hname⟩ := Option.isSome_iff_exists.mp htaken.2
    simp only [hname, Option.map_some, Option.some.injEq, Option.isSome_some, not_true, and_false,
      iff_false]
    rintro rfl
    exact hother rfl
  · rename_i hfree
    rw [Option.filter_eq_some_iff]
    constructor
    · rintro ⟨hhome, -⟩
      obtain ⟨key, hlink, -⟩ := Option.bind_eq_some_iff.mp hhome
      exact ⟨hhome, fun hlists => hfree ⟨mem_endpoints_of_link? hlink, hlists⟩⟩
    · rintro ⟨hhome, -⟩
      exact ⟨hhome, by simpa using hother⟩

/-- Another participant hosts the same nodes, which have lost what the snapshot lists. -/
theorem snapshot?_of_ne (hwf : g.WellFormed) (hother : gid ≠ snapshot.gid) :
    g'.snapshot? gid = (g.snapshot? gid).map (·.without snapshot) := by
  have hknown : (g'.snapshot? gid).isSome ↔ (g.snapshot? gid).isSome := by
    rw [isSome_snapshot?_iff, isSome_snapshot?_iff, mem_participants_iff, mem_participants_iff,
      h.enclave?, if_neg hother]
  cases hstate : g.snapshot? gid with
  | none => simpa [hstate] using hknown
  | some state =>
    obtain ⟨state', hstate'⟩ := Option.isSome_iff_exists.mp (hknown.mpr (by simp [hstate]))
    have hnames : state'.names = (state.without snapshot).names := by
      rw [Snapshot.names_without, names_snapshot? hstate, names_snapshot? hstate', h.hostedNames,
        if_neg hother]
    rw [hstate', Option.map_some, Option.some.injEq]
    refine Snapshot.ext_nodes ((gid_snapshot? hstate').trans (gid_snapshot? hstate).symm) hnames ?_
    intro entry' hentry' lost hlost hnode
    obtain ⟨entry, hentry, rfl⟩ := List.mem_map.mp hlost
    refine NodeEntities.ext_listed hnode fun kind => ?_
    obtain ⟨hsorted, hmem⟩ := hwf.listed_snapshot? hstate hentry kind
    obtain ⟨hsorted', hmem'⟩ := h.wellFormed.listed_snapshot? hstate' hentry' kind
    rw [NodeEntities.listed_without]
    refine Gid.eq_of_pairwise hsorted' (hsorted.filter _) fun endpoint => ?_
    rw [hmem', h.home?_eq_some_iff_of_ne hother, List.mem_filter, hmem,
      show entry'.node = entry.node from hnode, decide_eq_true_eq]

end Merge.Converged

namespace Graph

variable {g : Graph} {snapshot : Snapshot} {summary : Summary}

/-- A merge touches nothing but the participant that it is for and the endpoints that the snapshot
lists. All endpoints stay known with their topics and types. Every other participant keeps its
entry, and its nodes lose exactly the listed endpoints; what a node has is known in any case. An
endpoint that is not listed and was not at home at the participant keeps its link. What waited on
behalf of another participant goes on to wait in the same slot, unless it is listed: then it waits
on behalf of the node that lists it first. -/
theorem reconcile_frame (hg : g.Reachable)
    (haccepted : (g.reconcile snapshot).result = .ok summary) :
    let g' := (g.reconcile snapshot).graph
    (∀ id, g'.topicAndType? id = g.topicAndType? id) ∧
    (∀ gid, gid ≠ snapshot.gid →
      g'.participants[gid]? = g.participants[gid]? ∧
        g'.snapshot? gid = (g.snapshot? gid).map (·.without snapshot)) ∧
    (∀ id, ¬ snapshot.Lists id → (∀ name, g.home? id ≠ some ⟨snapshot.gid, name⟩) →
      g'.endpoint? id = g.endpoint? id ∧ g'.home? id = g.home? id) ∧
    ∀ (id : EndpointId) (key : NodeKey) (address : NodeAddress),
      g.pending[id]? = some key → g.nodes.address? key = some address →
      address.participant ≠ snapshot.gid →
        (¬ snapshot.Lists id →
          g'.pending[id]? = some key ∧ g'.nodes.address? key = some address) ∧
        ∀ name, snapshot.owner? id = some name →
          g'.awaiting? id = some ⟨snapshot.gid, name⟩ := by
  intro g'
  have h := hg.wellFormed
  have hnodup := (reconcile_eq_ok_iff.mp haccepted).1
  have hg' : g' = (Merge.run g snapshot).graph := graph_reconcile haccepted
  have hc : Merge.Converged g snapshot g' := hg' ▸ Merge.converged_run h hnodup
  have hothers : LeavesOthers snapshot.gid g g' := hg' ▸ Merge.leavesOthers_run h snapshot
  refine ⟨hc.keeps.topicAndType?, fun gid hgid => ⟨?_, hc.snapshot?_of_ne h hgid⟩, ?_, ?_⟩
  · have henclave := hc.enclave? gid
    rw [if_neg hgid] at henclave
    rw [getElem?_participants, getElem?_participants, henclave, hothers.hosted gid hgid]
  · intro id hunlisted haway
    have hlacks : ¬ (id ∈ g.endpoints ∧ (snapshot.owner? id).isSome) :=
      fun htaken => hunlisted (Snapshot.isSome_owner?_iff.mp htaken.2)
    cases hplace : g.home? id with
    | none =>
      have hplace' : g'.home? id = none := by rw [hc.home?, if_neg hlacks, hplace, Option.filter_none]
      refine ⟨endpoint?_congr (hc.keeps.topicAndType? id) ?_, hplace'⟩
      rw [h.link?_eq_none_iff.mpr hplace, hc.wellFormed.link?_eq_none_iff.mpr hplace']
    | some address =>
      have hother : address.participant ≠ snapshot.gid := by
        rintro hsame
        exact haway address.name (hsame ▸ hplace)
      have hplace' := (hc.home?_eq_some_iff_of_ne hother).mpr ⟨hplace, hunlisted⟩
      refine ⟨endpoint?_congr (hc.keeps.topicAndType? id) ?_, hplace'⟩
      exact hothers.link? hc.wellFormed hother hplace hplace'
  · intro id key address hkey haddress hother
    have hwaits : g.awaiting? id = some address := (h.awaiting?_eq_some_iff haddress).mpr hkey
    have hplace := (hothers.address?_iff key address hother).mpr haddress
    refine ⟨fun hunlisted => ⟨?_, hplace⟩, fun name howner => ?_⟩
    · rw [← hc.wellFormed.awaiting?_eq_some_iff hplace, hc.awaiting?,
        if_neg fun htaken => hunlisted (Snapshot.isSome_owner?_iff.mp htaken.2), hwaits]
      simpa [Option.filter_some] using hother
    · exact hc.awaiting?_eq_some_iff.mpr ⟨howner, h.mayWait hkey⟩

/-- The other participant loses one of its two readers and goes on to wait for a writer. -/
theorem reconcile_frame_taken :
    let one : Gid := ⟨.replicate gidWidth 1⟩
    let g := (emptyWith .recycle .standard).run
      [.addEndpoint ⟨.reader, .zero⟩ "t" "T", .addEndpoint ⟨.reader, one⟩ "t" "T",
        .reconcile ⟨one, [⟨⟨"/", "a"⟩, [.zero, one], [one]⟩]⟩]
    let snapshot : Snapshot := ⟨.zero, [⟨⟨"/", "b"⟩, [.zero], [.zero]⟩]⟩
    let g' := (g.reconcile snapshot).graph
    (g.reconcile snapshot).result = .ok ⟨true, 1, 0, 1, 0, 1⟩ ∧
      g'.snapshot? one = some ⟨one, [⟨⟨"/", "a"⟩, [one], []⟩]⟩ ∧
      g'.endpoint? ⟨.reader, one⟩ = some ⟨"t", "T", some 0⟩ ∧
      g'.pending[(⟨.writer, one⟩ : EndpointId)]? = some 0 := by
  intro one g snapshot g'
  have hg : g.Reachable := ⟨_, _, _, rfl⟩
  have hsummary : (Merge.run g snapshot).summary = ⟨true, 1, 0, 1, 0, 1⟩ := by
    simp only [g, snapshot, one]
    decide +kernel
  have haccepted : (g.reconcile snapshot).result = .ok ⟨true, 1, 0, 1, 0, 1⟩ :=
    reconcile_eq_ok_iff.mpr ⟨by decide, hsummary⟩
  have hother : one ≠ snapshot.gid := by decide
  have hreader : ¬ snapshot.Lists ⟨.reader, one⟩ := by decide
  have hwriter : ¬ snapshot.Lists ⟨.writer, one⟩ := by decide
  have hstate : g.snapshot? one = some ⟨one, [⟨⟨"/", "a"⟩, [.zero, one], []⟩]⟩ := by
    simp only [g, one]
    decide +kernel
  have hendpoint : g.endpoint? ⟨.reader, one⟩ = some ⟨"t", "T", some 0⟩ := by
    simp only [g, one]
    decide +kernel
  have hhome : g.home? ⟨.reader, one⟩ = some ⟨one, ⟨"/", "a"⟩⟩ := by
    simp only [g, one]
    decide +kernel
  have hpending : g.pending[(⟨.writer, one⟩ : EndpointId)]? = some 0 := by
    simp only [g, one]
    decide +kernel
  have haddress : g.nodes.address? 0 = some ⟨one, ⟨"/", "a"⟩⟩ := by
    simp only [g, one]
    decide +kernel
  obtain ⟨-, hothers, hendpoints, hwaits⟩ := reconcile_frame hg haccepted
  refine ⟨haccepted, ?_, ?_, ((hwaits _ _ _ hpending haddress hother).1 hwriter).1⟩
  · rw [show g' = (g.reconcile snapshot).graph from rfl, (hothers one hother).2, hstate]
    decide
  · refine ((hendpoints _ hreader fun name => ?_).1).trans hendpoint
    rw [hhome]
    simpa using fun heq => absurd heq hother

end Graph

end DiscoveryGraph
