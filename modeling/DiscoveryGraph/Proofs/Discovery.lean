import DiscoveryGraph.Proofs.Requests

/-!
# The order of discovery

Announcements of endpoints and merges of snapshots reach a graph in any order. When listed
endpoints wait until they are announced, the order does not matter: an endpoint that is announced
late goes to the node that waits for it, which is the node that it would have been moved to.

Merges take the same slots for the same nodes, whichever endpoints are known (`SameNodes.run`), so
that not only the places but the slots agree.

* `reconcile_addEndpoint_comm`: an announcement may come before or after a merge.
* `run_eq_of_interleaved`: any two interleavings of the same announcements with the same merges
  lead to the same graph.
-/

namespace DiscoveryGraph

open DiscoveryGraph.Graph

/-! ## Nodes without their endpoints -/

namespace NodeArena

variable {a b : NodeArena} {key : NodeKey}

section Congr

variable (hslots : b.slots = a.slots) (hbyName : b.byName = a.byName)
  (haddress : ∀ key, b.address? key = a.address? key)
include hbyName haddress

theorem find?_congr (participant : Gid) (name : NodeName) :
    b.find? participant name = a.find? participant name := by
  have hany : ∀ arena : NodeArena, ∀ key, (arena.get? key).any (·.participant = participant) =
      (arena.address? key).any (·.participant = participant) := by
    intro arena key
    cases hkey : arena.get? key <;> simp [address?, hkey, NodeRecord.address]
  simp only [find?, keysOf, hbyName, hany, haddress]

include hslots

theorem erase_congr (key : NodeKey) : (b.erase key).slots = (a.erase key).slots ∧
    (b.erase key).byName = (a.erase key).byName := by
  have hkey := haddress key
  unfold address? at hkey
  unfold erase
  cases ha : a.get? key with
  | none => cases hb : b.get? key with
    | none => exact ⟨hslots, hbyName⟩
    | some node => simp [ha, hb] at hkey
  | some node => cases hb : b.get? key with
    | none => simp [ha, hb] at hkey
    | some node' =>
      have hname : node'.name = node.name := by
        simp only [ha, hb, Option.map_some, Option.some.injEq] at hkey
        exact congrArg NodeAddress.name hkey
      simp [hslots, hbyName, hname]

end Congr

end NodeArena

namespace Graph

variable {g g' : Graph} {gid : Gid} {name : NodeName} {key : NodeKey}

namespace SameNodes

variable (hn : SameNodes g g')
include hn

theorem find? (gid : Gid) (name : NodeName) :
    g'.nodes.find? gid name = g.nodes.find? gid name :=
  NodeArena.find?_congr hn.byName hn.address? gid name

theorem removeNodeAt (gid : Gid) (key : NodeKey) :
    SameNodes (g.removeNodeAt gid key) (g'.removeNodeAt gid key) := by
  obtain ⟨hslots, hbyName⟩ := NodeArena.erase_congr hn.slots hn.byName hn.address? key
  refine ⟨?_, ?_, ?_, ?_⟩
  · simp only [Graph.removeNodeAt, participants_dropNode, hn.participants]
  · simpa only [Graph.removeNodeAt, nodes_dropNode] using hslots
  · simpa only [Graph.removeNodeAt, nodes_dropNode] using hbyName
  · intro other
    simp only [Graph.removeNodeAt, nodes_dropNode, NodeArena.address?_erase, hn.address?]

theorem foldl_removeNodeAt (gid : Gid) (keys : List NodeKey) :
    SameNodes (keys.foldl (Graph.removeNodeAt · gid) g)
      (keys.foldl (Graph.removeNodeAt · gid) g') := by
  induction keys generalizing g g' with
  | nil => exact hn
  | cons key keys ih => exact ih (hn.removeNodeAt gid key)

theorem insertNode (gid : Gid) (name : NodeName) :
    (g'.insertNode gid name).1 = (g.insertNode gid name).1 ∧
      SameNodes (g.insertNode gid name).2 (g'.insertNode gid name).2 := by
  have hkey : (g'.insertNode gid name).1 = (g.insertNode gid name).1 := by
    simp only [Graph.insertNode, NodeArena.insert, hn.slots]
  refine ⟨hkey, ?_, ?_, ?_, ?_⟩
  · rw [participants_insertNode, participants_insertNode, hkey, hn.participants]
  · simp only [Graph.insertNode, NodeArena.insert, hn.slots]
  · simp only [Graph.insertNode, NodeArena.insert, NodeArena.keysOf, hn.slots, hn.byName]
  · intro other
    rw [address?_insertNode, address?_insertNode, hkey, hn.address?]

end SameNodes

end Graph

namespace Merge

variable {m m' : Merge} {snapshot : Snapshot} {gid : Gid} {g g' : Graph}

section SameNodes

variable (hn : SameNodes m.graph m'.graph)
include hn

theorem sameNodes_ensureParticipant (gid : Gid) :
    SameNodes (m.ensureParticipant gid).graph (m'.ensureParticipant gid).graph := by
  unfold ensureParticipant
  rw [hn.participants]
  split
  · exact hn
  · exact ⟨rfl, hn.slots, hn.byName, hn.address?⟩

theorem staleKeys_congr (gid : Gid) (names : List NodeName) :
    staleKeys m'.graph gid names = staleKeys m.graph gid names := by
  have hall : ∀ g : Graph, ∀ key, (g.nodes.get? key).all (·.name ∉ names) =
      (g.nodes.address? key).all (·.name ∉ names) := by
    intro g key
    cases hkey : g.nodes.get? key <;> simp [NodeArena.address?, hkey, NodeRecord.address]
  simp only [staleKeys, hn.participants, hall, hn.address?]

theorem sameNodes_removeStale (gid : Gid) (names : List NodeName) :
    SameNodes (m.removeStale gid names).graph (m'.removeStale gid names).graph := by
  rw [removeStale, removeStale, graph_foldl_removeNode, graph_foldl_removeNode,
    staleKeys_congr hn]
  exact hn.foldl_removeNodeAt gid _

theorem sameNodes_ensureNode (gid : Gid) (name : NodeName) :
    SameNodes (m.ensureNode gid name).2.graph (m'.ensureNode gid name).2.graph := by
  unfold ensureNode
  rw [hn.find?]
  cases m.graph.nodes.find? gid name with
  | some key => exact hn
  | none => exact (hn.insertNode gid name).2

/-- What the endpoints of a node are does not matter for the nodes. -/
theorem sameNodes_mergeNode (h : m.graph.WellFormed) (h' : m'.graph.WellFormed)
    (hgid : snapshot.gid ∈ m.graph.participants) (entry : NodeEntities) :
    SameNodes (mergeNode snapshot m entry).graph (mergeNode snapshot m' entry).graph := by
  have hgid' : snapshot.gid ∈ m'.graph.participants := hn.participants ▸ hgid
  have hs := (settled_mergeNode h hgid entry).rewired.toSameNodes
  have hs' := (settled_mergeNode h' hgid' entry).rewired.toSameNodes
  exact (hs.symm.trans (sameNodes_ensureNode hn snapshot.gid entry.node)).trans hs'

theorem sameNodes_foldl (h : m.graph.WellFormed) (h' : m'.graph.WellFormed)
    (hgid : snapshot.gid ∈ m.graph.participants) (entries : List NodeEntities) :
    SameNodes (entries.foldl (mergeNode snapshot) m).graph
      (entries.foldl (mergeNode snapshot) m').graph := by
  induction entries generalizing m m' with
  | nil => exact hn
  | cons entry entries ih =>
    have hgid' : snapshot.gid ∈ m'.graph.participants := hn.participants ▸ hgid
    have hs := settled_mergeNode h hgid entry
    have hs' := settled_mergeNode h' hgid' entry
    exact ih (sameNodes_mergeNode hn h h' hgid entry) hs.wellFormed hs'.wellFormed
      (mem_participants_mergeNode h hgid entry)

end SameNodes

/-- A merge leads to the same nodes in the same slots, whichever endpoints are known. -/
theorem sameNodes_run (h : g.WellFormed) (h' : g'.WellFormed) (hn : SameNodes g g')
    (snapshot : Snapshot) : SameNodes (run g snapshot).graph (run g' snapshot).graph := by
  let start : Merge := { graph := g, summary := .none, events := [] }
  let start' : Merge := { graph := g', summary := .none, events := [] }
  have hr := registered_ensureParticipant (m := start) h snapshot.gid
  have hr' := registered_ensureParticipant (m := start') h' snapshot.gid
  have hp := pruned_removeStale hr.wellFormed snapshot.gid snapshot.names
  have hp' := pruned_removeStale hr'.wellFormed snapshot.gid snapshot.names
  have hhosted : SameNodes (start.ensureParticipant snapshot.gid).graph
      (start'.ensureParticipant snapshot.gid).graph :=
    sameNodes_ensureParticipant hn snapshot.gid
  refine sameNodes_foldl (sameNodes_removeStale hhosted snapshot.gid snapshot.names)
    hp.wellFormed hp'.wellFormed ?_ snapshot.nodes
  rw [mem_participants_iff, hp.enclave?, hr.enclave?]
  simp

end Merge

namespace Graph

variable {g : Graph} {id : EndpointId} {snapshot : Snapshot}

/-! ## Announcements and merges -/

/-- An endpoint that is not known may be announced before or after a merge. -/
theorem WellFormed.reconcile_addEndpoint_comm (h : g.WellFormed)
    (hon : g.prefs.reconcile.deferUnknownEndpoints = true) (hid : id ∉ g.endpoints)
    (topic type : String) (snapshot : Snapshot) :
    ((g.addEndpoint id topic type).graph.reconcile snapshot).graph =
      ((g.reconcile snapshot).graph.addEndpoint id topic type).graph := by
  by_cases hnodup : snapshot.names.Nodup
  · have hknown := announced_addEndpoint h hid topic type
    have hmerged := Merge.converged_run h hnodup
    have hfirst := Merge.converged_run hknown.wellFormed hnodup
    have hnodes := Merge.sameNodes_run h hknown.wellFormed hknown.toSameNodes snapshot
    have hunknown : id ∉ (Merge.run g snapshot).graph.endpoints := by
      rw [hmerged.keeps.mem_endpoints]
      exact hid
    have hlast := announced_addEndpoint hmerged.wellFormed hunknown topic type
    rw [reconcile_of_nodup hnodup, reconcile_of_nodup hnodup]
    refine hlast.wellFormed.ext_places hfirst.wellFormed
      ⟨⟨?_, ?_, ?_⟩, hlast.toSameNodes.symm.trans hnodes⟩ ?_ ?_
    · intro next
      rw [hfirst.keeps.topicAndType?, hknown.topicAndType?, hlast.topicAndType?,
        hmerged.keeps.topicAndType?]
    · rw [hfirst.keeps.prefs, hknown.prefs, hlast.prefs, hmerged.keeps.prefs]
    · rw [hfirst.keeps.watched, hknown.watched, hlast.watched, hmerged.keeps.watched]
    · intro next
      simp only [hfirst.home?, hlast.home?, hknown.mem_endpoints, hknown.home?]
      by_cases hnext : next = id
      · -- What the merge does to the place where the endpoint waits it would do to its home.
        subst hnext
        rw [if_pos rfl, if_pos rfl, hmerged.awaiting?]
        simp [MayWait, hid, hon]
      · simp only [hnext, if_false, false_or, hmerged.home?]
    · intro next
      rw [hfirst.awaiting?, hlast.awaiting?, hknown.awaiting?, hmerged.awaiting?]
      simp only [MayWait, hknown.mem_endpoints, hknown.prefs]
      by_cases hnext : next = id <;> simp [hnext]
  · rw [graph_reconcile_of_repeated hnodup, graph_reconcile_of_repeated hnodup]

end Graph

/-! ## Interleavings -/

/-- The announcement of an endpoint. -/
structure Announcement where
  id : EndpointId
  topic : String
  type : String

namespace Announcement

/-- The command that carries out the announcement. -/
def command (announcement : Announcement) : Command :=
  .addEndpoint announcement.id announcement.topic announcement.type

end Announcement

/-- The commands merge the snapshots and carry out the announcements, each in their order. -/
inductive Interleaved : List Snapshot → List Announcement → List Command → Prop where
  | nil : Interleaved [] [] []
  | merge {snapshot snapshots announcements commands} :
    Interleaved snapshots announcements commands →
      Interleaved (snapshot :: snapshots) announcements (.reconcile snapshot :: commands)
  | announce {announcement snapshots announcements commands} :
    Interleaved snapshots announcements commands →
      Interleaved snapshots (announcement :: announcements) (announcement.command :: commands)

namespace Graph

variable {g : Graph} {snapshots : List Snapshot} {announcements more : List Announcement}
  {commands : List Command}

/-- None of the announced endpoints is known, none is announced twice, and associations may
wait. -/
structure Awaits (g : Graph) (announcements : List Announcement) : Prop where
  wellFormed : g.WellFormed
  allowed : g.prefs.reconcile.deferUnknownEndpoints = true
  unknown : ∀ announcement ∈ announcements, announcement.id ∉ g.endpoints
  nodup : (announcements.map (·.id)).Nodup

namespace Awaits

variable {announcement : Announcement} {snapshot : Snapshot}

theorem reconcile (h : g.Awaits announcements) (snapshot : Snapshot) :
    (g.reconcile snapshot).graph.Awaits announcements := by
  have hkeeps := keeps_reconcile h.wellFormed snapshot
  refine ⟨h.wellFormed.reconcile snapshot, hkeeps.prefs ▸ h.allowed, ?_, h.nodup⟩
  intro announcement hmem
  rw [hkeeps.mem_endpoints]
  exact h.unknown announcement hmem

theorem announce (h : g.Awaits (announcement :: announcements)) :
    (g.perform announcement.command).graph.Awaits announcements := by
  obtain ⟨hnew, hnodup⟩ := List.nodup_cons.mp h.nodup
  have ha := announced_addEndpoint h.wellFormed (h.unknown _ List.mem_cons_self)
    announcement.topic announcement.type
  refine ⟨ha.wellFormed, ha.prefs ▸ h.allowed, ?_, hnodup⟩
  intro other hother hknown
  rcases (ha.mem_endpoints other.id).mp hknown with heq | hold
  · exact hnew (List.mem_map.mpr ⟨other, hother, heq⟩)
  · exact h.unknown other (List.mem_cons_of_mem _ hother) hold

/-- An announcement may be put off until some snapshots have been merged. -/
theorem run_announce (h : g.Awaits (announcement :: announcements))
    (snapshots : List Snapshot) :
    (g.perform announcement.command).graph.run (snapshots.map .reconcile) =
      ((g.run (snapshots.map .reconcile)).perform announcement.command).graph := by
  induction snapshots generalizing g with
  | nil => rfl
  | cons snapshot snapshots ih =>
    have hcomm := h.wellFormed.reconcile_addEndpoint_comm h.allowed
      (h.unknown _ List.mem_cons_self) announcement.topic announcement.type snapshot
    have hrest := ih (h.reconcile snapshot)
    exact (congrArg (run · (snapshots.map .reconcile)) hcomm).trans hrest

theorem run_reconcile (h : g.Awaits announcements) (snapshots : List Snapshot) :
    (g.run (snapshots.map .reconcile)).Awaits announcements := by
  induction snapshots generalizing g with
  | nil => exact h
  | cons snapshot snapshots ih => exact ih (h.reconcile snapshot)

/-- All announcements may be put off until all snapshots have been merged. -/
theorem run_interleaved (h : g.Awaits announcements)
    (hcommands : Interleaved snapshots announcements commands) :
    g.run commands =
      (g.run (snapshots.map .reconcile)).run (announcements.map (·.command)) := by
  induction hcommands generalizing g with
  | nil => rfl
  | merge _ ih => exact ih (h.reconcile _)
  | announce _ ih =>
    refine (ih h.announce).trans ?_
    rw [h.run_announce]
    rfl

/-- The announcements may be carried out in any order. -/
theorem run_perm (h : g.Awaits announcements) (hperm : announcements.Perm more) :
    g.run (announcements.map (·.command)) = g.run (more.map (·.command)) := by
  induction hperm generalizing g with
  | nil => rfl
  | cons announcement _ ih => exact ih h.announce
  | swap first second rest =>
    obtain ⟨hnew, hnodup⟩ := List.nodup_cons.mp h.nodup
    have hne : second.id ≠ first.id := fun heq =>
      hnew (List.mem_map.mpr ⟨first, List.mem_cons_self, heq.symm⟩)
    have hcomm := h.wellFormed.addEndpoint_comm (h.unknown _ List.mem_cons_self)
      (h.unknown _ (List.mem_cons_of_mem _ List.mem_cons_self)) hne second.topic second.type
      first.topic first.type
    exact congrArg (run · (rest.map (·.command))) hcomm
  | trans hfirst _ ih ih' =>
    refine (ih h).trans (ih' ⟨h.wellFormed, h.allowed, ?_, ?_⟩)
    · exact fun announcement hmem => h.unknown announcement (hfirst.mem_iff.mpr hmem)
    · exact (hfirst.map _).nodup_iff.mp h.nodup

end Awaits

/-- Where associations may wait, the order of discovery does not matter. However the merges of some
snapshots, in their order, and the announcements of some endpoints that are not known, in any
order, are interleaved, they lead to the same graph. -/
theorem run_eq_of_interleaved {commands' : List Command} (hg : g.Reachable)
    (hon : g.prefs.reconcile.deferUnknownEndpoints = true)
    (hunknown : ∀ announcement ∈ announcements, announcement.id ∉ g.endpoints)
    (hnodup : (announcements.map (·.id)).Nodup) (hperm : announcements.Perm more)
    (hcommands : Interleaved snapshots announcements commands)
    (hcommands' : Interleaved snapshots more commands') : g.run commands = g.run commands' := by
  have h : g.Awaits announcements := ⟨hg.wellFormed, hon, hunknown, hnodup⟩
  have h' : g.Awaits more :=
    ⟨hg.wellFormed, hon, fun announcement hmem => hunknown announcement (hperm.mem_iff.mpr hmem),
      (hperm.map _).nodup_iff.mp hnodup⟩
  rw [h.run_interleaved hcommands, h'.run_interleaved hcommands']
  exact (h.run_reconcile snapshots).run_perm hperm

/-- The reader is announced while a node waits for it, which the next snapshot makes give it away;
or it is announced last, when the node that it was moved to waits for it. -/
theorem run_eq_of_interleaved_moved :
    let g := (emptyWith .recycle .standard).run
      [.reconcile ⟨.zero, [⟨⟨"/", "a"⟩, [.zero], []⟩]⟩]
    let moved : Snapshot := ⟨⟨.replicate gidWidth 1⟩, [⟨⟨"/", "b"⟩, [.zero], [.zero]⟩]⟩
    let emptied : Snapshot := ⟨.zero, []⟩
    let reader : Announcement := ⟨⟨.reader, .zero⟩, "rt/chatter", "T"⟩
    let writer : Announcement := ⟨⟨.writer, .zero⟩, "rt/chatter", "T"⟩
    reader.id ∉ g.endpoints ∧ writer.id ∉ g.endpoints ∧
      g.run [reader.command, .reconcile moved, writer.command, .reconcile emptied] =
        g.run [.reconcile moved, .reconcile emptied, writer.command, reader.command] := by
  intro g moved emptied reader writer
  have hg : g.Reachable := ⟨_, _, _, rfl⟩
  have hreader : reader.id ∉ g.endpoints := by
    simp only [g, reader]
    decide +kernel
  have hwriter : writer.id ∉ g.endpoints := by
    simp only [g, writer]
    decide +kernel
  have hon : g.prefs.reconcile.deferUnknownEndpoints = true := by
    simp only [g]
    decide +kernel
  refine ⟨hreader, hwriter, ?_⟩
  exact run_eq_of_interleaved hg hon (by simp [hreader, hwriter])
    (by simp [reader, writer]) (.swap writer reader [])
    (.announce (.merge (.announce (.merge .nil))))
    (.merge (.merge (.announce (.announce .nil))))

end Graph

end DiscoveryGraph
