import DiscoveryGraph.Proofs.History
import DiscoveryGraph.Proofs.Refusals
import DiscoveryGraph.Proofs.Slots
import DiscoveryGraph.Proofs.Watching

/-!
# Nothing is left behind

A teardown removes every participant and every endpoint once, in any order, and may remove nodes
while they are still hosted. Each of its commands finds what it removes, and takes nothing away
that a later command is about but the nodes of a participant. At its end the graph is without
content. The slots that were given back stay behind, but they cannot be seen.

* `Teardown.perform`: one command of a teardown, and what is left to be torn down.
* `WellFormed.bare`: without participants and endpoints, nothing else remains.
* `teardown_leaves_nothing`: whole teardowns, and every session after them.
-/

namespace DiscoveryGraph

open Std (ExtTreeMap)

/-- The command removes something. -/
def Command.isRemoval : Command → Bool
  | .removeParticipant _ | .removeEndpoint _ | .removeNode .. => true
  | _ => false

namespace Graph

/-- Some commands remove every participant and every endpoint of the graph once, and nodes that are
still hosted, that is neither removed themselves nor together with their participant. -/
structure Teardown (g : Graph) (commands : List Command) : Prop where
  removals : ∀ command ∈ commands, command.isRemoval = true
  participants : ∀ gid,
    commands.count (.removeParticipant gid) = if gid ∈ g.participants then 1 else 0
  endpoints : ∀ id, commands.count (.removeEndpoint id) = if id ∈ g.endpoints then 1 else 0
  nodes : ∀ earlier gid node later, commands = earlier ++ .removeNode gid node :: later →
    g.Hosts gid node ∧ .removeNode gid node ∉ earlier ∧ .removeParticipant gid ∉ earlier

/-- There is nothing in the graph, and nothing in its indices either. -/
structure Bare (g : Graph) : Prop where
  nodes : g.nodes.records = ∅
  byName : g.nodes.byName = ∅
  endpoints : g.endpoints = ∅
  participants : g.participants = ∅
  pending : g.pending = ∅

/-- What a removal leaves of participants, endpoints and nodes. -/
structure Remains (command : Command) (g g' : Graph) : Prop where
  participants : ∀ gid,
    gid ∈ g'.participants ↔ gid ∈ g.participants ∧ command ≠ .removeParticipant gid
  endpoints : ∀ id, id ∈ g'.endpoints ↔ id ∈ g.endpoints ∧ command ≠ .removeEndpoint id
  hosts : ∀ gid node, g'.Hosts gid node ↔ g.Hosts gid node ∧
    command ≠ .removeParticipant gid ∧ command ≠ .removeNode gid node

variable {g g' : Graph} {command : Command} {commands : List Command} {gid : Gid}
  {node : NodeName} {id : EndpointId}

/-! ## One removal -/

theorem remains_removeEndpoint (id : EndpointId) :
    Remains (.removeEndpoint id) g (g.removeEndpoint id).graph := by
  have hf := forgotten_removeEndpoint g id
  refine ⟨fun gid => ?_, fun next => ?_, fun gid node => ?_⟩
  · rw [hf.participants]
    simp
  · rw [hf.mem_endpoints]
    simp [and_comm, eq_comm]
  · rw [hosts_iff, hf.hostedNames, hosts_iff]
    simp

namespace WellFormed

variable (h : g.WellFormed)
include h

theorem remains_removeParticipant (hgid : gid ∈ g.participants) :
    Remains (.removeParticipant gid) g (g.removeParticipant gid).graph := by
  have hr := h.removed_dropParticipant gid
  rw [removeParticipant_eq hgid, commit]
  refine ⟨fun owner => ?_, fun id => ?_, fun owner node => ?_⟩
  · rw [mem_participants_iff, h.enclave?_dropParticipant, mem_participants_iff]
    by_cases howner : gid = owner <;> simp [howner]
  · rw [hr.toKeeps.mem_endpoints]
    simp
  · rw [hosts_iff, h.hostedNames_vacate hr.toVacated
      (fun _ _ => h.mem_hosted_iff_participant) hr.hosted, hosts_iff]
    simp [eq_comm (a := owner)]

theorem remains_removeNode (hhosts : g.Hosts gid node) :
    Remains (.removeNode gid node) g (g.removeNode gid node).graph := by
  obtain ⟨key, hfind⟩ := h.find_of_hosts hhosts
  have hkey := h.find_eq_ok hfind
  have hr := h.removed_removeNodeAt hkey
  rw [Graph.removeNode, hfind]
  change Remains _ g (g.removeNodeAt gid key)
  refine ⟨fun owner => ?_, fun id => ?_, fun owner other => ?_⟩
  · rw [mem_participants_iff, enclave?_removeNodeAt, mem_participants_iff]
    simp
  · rw [hr.toKeeps.mem_endpoints]
    simp
  · rw [hosts_iff, h.hostedNames_vacate hr.toVacated
      (fun _ _ => h.mem_singleton_iff_address hkey) hr.hosted, hosts_iff]
    simp [eq_comm (a := owner), eq_comm (a := other), imp_iff_not_or]

end WellFormed

/-! ## Teardowns -/

namespace Teardown

/-- What the first command removes is there. -/
theorem count_head {before : Prop} [Decidable before]
    (hcount : (command :: commands).count command = if before then 1 else 0) : before := by
  by_contra hnot
  rw [List.count_cons_self, if_neg hnot] at hcount
  omega

/-- What is removed once is removed by the first command or by the others. -/
theorem count_tail {before after : Prop} [Decidable before] [Decidable after] {removal : Command}
    (hcount : (command :: commands).count removal = if before then 1 else 0)
    (hleft : after ↔ before ∧ command ≠ removal) :
    commands.count removal = if after then 1 else 0 := by
  rw [List.count_cons] at hcount
  by_cases hfirst : command = removal
  · have hgone : ¬ after := fun hafter => (hleft.mp hafter).2 hfirst
    rw [if_pos (beq_iff_eq.mpr hfirst)] at hcount
    rw [if_neg hgone]
    split at hcount <;> omega
  · have hsame : after ↔ before := hleft.trans (and_iff_left hfirst)
    rw [if_neg (mt beq_iff_eq.mp hfirst)] at hcount
    simpa only [hsame, Nat.add_zero] using hcount

/-- What a removal leaves is torn down by the commands after it. -/
theorem tail (ht : Teardown g (command :: commands)) (hr : Remains command g g') :
    Teardown g' commands where
  removals next hnext := ht.removals next (List.mem_cons_of_mem _ hnext)
  participants gid := count_tail (ht.participants gid) (hr.participants gid)
  endpoints id := count_tail (ht.endpoints id) (hr.endpoints id)
  nodes earlier gid node later hcommands := by
    obtain ⟨hhosts, hnode, hparticipant⟩ :=
      ht.nodes (command :: earlier) gid node later (by rw [hcommands]; rfl)
    rw [List.mem_cons, not_or] at hnode hparticipant
    exact ⟨(hr.hosts gid node).mpr ⟨hhosts, Ne.symm hparticipant.1, Ne.symm hnode.1⟩, hnode.2,
      hparticipant.2⟩

/-- Each command of a teardown is carried out, and the others are a teardown of what it leaves. -/
theorem perform (ht : Teardown g (command :: commands)) (h : g.WellFormed) :
    (g.perform command).result.isOk ∧ Teardown (g.perform command).graph commands := by
  cases command with
  | removeParticipant gid =>
    have hgid : gid ∈ g.participants := count_head (ht.participants gid)
    refine ⟨h.isOk_perform ?_, ht.tail (h.remains_removeParticipant hgid)⟩
    rintro error ⟨⟩
    rename_i unknown
    exact snapshot?_eq_none_iff.mp unknown hgid
  | removeEndpoint id =>
    have hid : id ∈ g.endpoints := count_head (ht.endpoints id)
    refine ⟨h.isOk_perform ?_, ht.tail (remains_removeEndpoint id)⟩
    rintro error ⟨⟩
    rename_i unknown
    exact endpoint?_eq_none_iff.mp unknown hid
  | removeNode gid node =>
    obtain ⟨hhosts, -, -⟩ := ht.nodes [] gid node commands rfl
    refine ⟨h.isOk_perform ?_, ht.tail (h.remains_removeNode hhosts)⟩
    rintro error ⟨⟩
    rename_i missing
    exact h.not_missing hhosts missing
  | _ => cases ht.removals _ List.mem_cons_self

theorem run (ht : Teardown g commands) (h : g.WellFormed) :
    g.carriedOut commands = commands ∧ Teardown (g.run commands) [] := by
  induction commands generalizing g with
  | nil => exact ⟨rfl, ht⟩
  | cons command commands ih =>
    obtain ⟨hdone, hrest⟩ := ht.perform h
    obtain ⟨hall, hend⟩ := ih hrest (h.perform command)
    refine ⟨?_, hend⟩
    rw [carriedOut]
    simp only [hdone, if_true, hall]

end Teardown

/-! ## What remains at the end -/

namespace WellFormed

variable (h : g.WellFormed) (hparticipants : g.participants = ∅)
include h hparticipants

theorem address?_eq_none_of_participants (key : NodeKey) : g.nodes.address? key = none := by
  refine Option.eq_none_iff_forall_ne_some.mpr fun address haddress => ?_
  have hgid := h.mem_participants_of_address? haddress
  rw [hparticipants] at hgid
  exact ExtTreeMap.not_mem_empty hgid

/-- Without participants there is no node, and without nodes nothing waits. -/
theorem bare (hendpoints : g.endpoints = ∅) : g.Bare where
  nodes := by
    apply ExtTreeMap.ext_getElem?
    intro key
    rw [ExtTreeMap.getElem?_empty]
    exact NodeArena.address?_eq_none_iff.mp (h.address?_eq_none_of_participants hparticipants key)
  byName := by
    apply ExtTreeMap.ext_getElem?
    intro name
    rw [ExtTreeMap.getElem?_empty]
    refine Option.eq_none_iff_forall_ne_some.mpr fun keys hkeys => ?_
    -- An entry of the index has a slot, and a slot of the index has a node.
    have hne : keys ≠ [] := fun hnil => h.arena.entry_ne_nil name (hnil ▸ hkeys)
    obtain ⟨key, hkey⟩ := List.exists_mem_of_ne_nil keys hne
    rw [← NodeArena.keysOf_of_getElem? hkeys] at hkey
    obtain ⟨gid, haddress⟩ := (h.arena.mem_keysOf name key).mp hkey
    rw [h.address?_eq_none_of_participants hparticipants] at haddress
    cases haddress
  endpoints := hendpoints
  participants := hparticipants
  pending := by
    apply ExtTreeMap.ext_getElem?
    intro id
    rw [ExtTreeMap.getElem?_empty]
    refine Option.eq_none_iff_forall_ne_some.mpr fun key hkey => ?_
    obtain ⟨address, haddress⟩ := h.awaiting_live id key hkey
    rw [h.address?_eq_none_of_participants hparticipants] at haddress
    cases haddress

end WellFormed

/-- A graph without content cannot be told from a new one with the same preferences and the same
watcher. -/
theorem Bare.alike (hb : g.Bare) (h : g.WellFormed) :
    Alike ((empty g.prefs).withWatcher g.watched) g where
  topicAndType? id := by rw [topicAndType?, hb.endpoints]; rfl
  prefs := rfl
  watched := rfl
  wellFormed := (wellFormed_emptyWith .recycle g.prefs).withWatched g.watched
  wellFormed' := h
  enclave? gid := by rw [enclave?, hb.participants]; rfl
  hostedNames gid := by rw [hostedNames, hosted, hb.participants]; rfl
  home? id := by rw [home?, link?, hb.endpoints]; rfl
  awaiting? id := by rw [awaiting?, hb.pending]; rfl
  hostsOf name := by rw [NodeArena.hostsOf, NodeArena.keysOf, hb.byName]; rfl

end Graph

end DiscoveryGraph
