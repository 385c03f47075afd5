import DiscoveryGraph.Proofs.Arena

/-!
# Nodes of one name

The index of names with slots replaced by participants: who hosts the nodes of each name, in the
order of their creation (`hostsOf`). What is listed by name is a function of this index alone.

* `addresses_listing`: the listing of all nodes, address by address.
* `size_eq_length_listing`: the listing is complete.
-/

namespace DiscoveryGraph.NodeArena

open Std (ExtTreeMap)

/-- The participants that host the nodes in some slots. -/
def hostsAt (arena : NodeArena) (keys : List NodeKey) : List Gid :=
  keys.filterMap fun key => (arena.address? key).map (·.participant)

/-- The participants that host a node called `name`, in the order in which these were created. -/
def hostsOf (arena : NodeArena) (name : NodeName) : List Gid :=
  arena.hostsAt (arena.keysOf name)

/-- The index of names, with participants for slots. -/
def hosts (arena : NodeArena) : ExtTreeMap NodeName (List Gid) :=
  arena.byName.map fun _ keys => arena.hostsAt keys

variable {arena : NodeArena} {key : NodeKey} {keys : List NodeKey} {participant gid : Gid}
  {name other : NodeName}

theorem keysOf_of_getElem? (h : arena.byName[name]? = some keys) : arena.keysOf name = keys := by
  rw [keysOf, ExtTreeMap.getD_eq_getD_getElem?, h]
  rfl

theorem keysOf_of_mem_byName {entry : NodeName × List NodeKey} (h : entry ∈ arena.byName.toList) :
    arena.keysOf entry.1 = entry.2 :=
  keysOf_of_getElem? (ExtTreeMap.mem_toList_iff_getElem?_eq_some.mp h)

/-! ## A new node -/

theorem hostsOf_insert (hvacant : arena.address? (arena.insert participant name).1 = none)
    (hlive : ∀ other, ∀ key ∈ arena.keysOf other, (arena.address? key).isSome)
    (other : NodeName) : (arena.insert participant name).2.hostsOf other =
      if name = other then arena.hostsOf other ++ [participant] else arena.hostsOf other := by
  have hold : (arena.insert participant name).2.hostsAt (arena.keysOf other) =
      arena.hostsOf other := by
    refine List.filterMap_congr fun key hkey => ?_
    rw [address?_insert, if_neg]
    rintro rfl
    simpa [hvacant] using hlive other _ hkey
  rw [hostsOf, keysOf_insert]
  split
  · rename_i heq
    subst heq
    rw [hostsAt, List.filterMap_append, ← hostsAt, hold]
    simp [address?_insert]
  · exact hold

namespace WellFormed

variable (h : arena.WellFormed)
include h

theorem isSome_address?_of_mem (hkey : key ∈ arena.keysOf name) :
    (arena.address? key).isSome := by
  obtain ⟨participant, haddress⟩ := (h.mem_keysOf name key).mp hkey
  simp [haddress]

theorem mem_hostsOf : gid ∈ arena.hostsOf name ↔ ∃ key, arena.address? key = some ⟨gid, name⟩ := by
  simp only [hostsOf, hostsAt, List.mem_filterMap, Option.map_eq_some_iff]
  constructor
  · rintro ⟨key, hkey, address, haddress, rfl⟩
    obtain ⟨participant, hother⟩ := (h.mem_keysOf name key).mp hkey
    rw [haddress] at hother
    cases hother
    exact ⟨key, haddress⟩
  · rintro ⟨key, haddress⟩
    exact ⟨key, (h.mem_keysOf name key).mpr ⟨gid, haddress⟩, _, haddress, rfl⟩

theorem nodup_hostsOf (hinj : ∀ key other address, arena.address? key = some address →
    arena.address? other = some address → key = other) : (arena.hostsOf name).Nodup := by
  refine List.pairwise_filterMap.mpr ((h.nodup_keysOf name).imp_of_mem ?_)
  intro key other hkey hother hne gid hgid gid' hgid' heq
  obtain ⟨participant, haddress⟩ := (h.mem_keysOf name key).mp hkey
  obtain ⟨participant', haddress'⟩ := (h.mem_keysOf name other).mp hother
  have hat : participant = gid := by simpa [haddress] using hgid
  have hat' : participant' = gid' := by simpa [haddress'] using hgid'
  rw [hat, heq, ← hat'] at haddress
  exact hne (hinj key other _ haddress haddress')

theorem hostsOf_eq_nil_iff : arena.hostsOf name = [] ↔ arena.keysOf name = [] := by
  rw [hostsOf, hostsAt, List.filterMap_eq_nil_iff]
  constructor
  · intro hnone
    refine List.eq_nil_iff_forall_not_mem.mpr fun key hkey => ?_
    have hsome := h.isSome_address?_of_mem hkey
    rw [Option.map_eq_none_iff.mp (hnone key hkey)] at hsome
    cases hsome
  · intro hnil key hkey
    rw [hnil] at hkey
    cases hkey

/-- A name without nodes has no entry. -/
theorem getElem?_hosts (name : NodeName) : arena.hosts[name]? =
    if arena.hostsOf name = [] then none else some (arena.hostsOf name) := by
  have hnone : arena.hostsOf name = [] ↔ arena.keysOf name = [] := h.hostsOf_eq_nil_iff
  rw [hosts, ExtTreeMap.getElem?_map]
  cases hentry : arena.byName[name]? with
  | none =>
    have hnil : arena.keysOf name = [] := by
      rw [keysOf, ExtTreeMap.getD_eq_getD_getElem?, hentry]
      rfl
    rw [if_pos (hnone.mpr hnil)]
    rfl
  | some keys =>
    have hkeys := keysOf_of_getElem? hentry
    have hne : keys ≠ [] := fun hnil => h.entry_ne_nil name (hnil ▸ hentry)
    rw [if_neg fun hnil => hne (hkeys ▸ hnone.mp hnil), hostsOf, hkeys]
    rfl

/-- Two arenas have the same index when the nodes of each name have the same participants. -/
theorem hosts_congr {other : NodeArena} (h' : other.WellFormed)
    (hsame : ∀ name, other.hostsOf name = arena.hostsOf name) : other.hosts = arena.hosts := by
  apply ExtTreeMap.ext_getElem?
  intro name
  rw [h'.getElem?_hosts, h.getElem?_hosts, hsame]

/-! ## Nodes that go away -/

theorem keysOf_erase (key : NodeKey) (name : NodeName) :
    (arena.erase key).keysOf name = (arena.keysOf name).filter (· ≠ key) := by
  have hother : (∀ participant, arena.address? key ≠ some ⟨participant, name⟩) →
      (arena.keysOf name).filter (· ≠ key) = arena.keysOf name := by
    intro hnamed
    refine List.filter_eq_self.mpr fun other hmem => decide_eq_true ?_
    rintro rfl
    obtain ⟨participant, haddress⟩ := (h.mem_keysOf name other).mp hmem
    exact hnamed participant haddress
  cases hnode : arena.get? key with
  | none =>
    rw [hother (by simp [address?, hnode]), NodeArena.erase, hnode]
  | some node =>
    rw [NodeArena.keysOf_erase hnode]
    split
    · rfl
    · rename_i hname
      exact (hother (by simp [address?, hnode, NodeRecord.address, hname])).symm

/-- What several nodes that go away leave of the index and of the addresses. -/
theorem foldl_erase (keys : List NodeKey) :
    (∀ name, (keys.foldl NodeArena.erase arena).keysOf name = (arena.keysOf name).filter (· ∉ keys)) ∧
      ∀ other, (keys.foldl NodeArena.erase arena).address? other =
        if other ∈ keys then none else arena.address? other := by
  induction keys generalizing arena with
  | nil => simp
  | cons key keys ih =>
    obtain ⟨hkeys, haddress⟩ := ih (h.erase key)
    refine ⟨fun name => ?_, fun other => ?_⟩
    · rw [List.foldl_cons, hkeys, h.keysOf_erase, List.filter_filter]
      refine List.filter_congr fun other _ => ?_
      simp [Bool.and_comm]
    · rw [List.foldl_cons, haddress, address?_erase]
      by_cases hother : other = key
      · simp [hother]
      · simp [hother, Ne.symm hother]

/-- Nodes of one name stay in the order of their creation when others go away. -/
theorem hostsOf_foldl_erase {keys : List NodeKey} {gone : NodeAddress → Prop} [DecidablePred gone]
    (hgone : ∀ key address, arena.address? key = some address → (key ∈ keys ↔ gone address))
    (name : NodeName) : (keys.foldl NodeArena.erase arena).hostsOf name =
      (arena.hostsOf name).filter fun gid => ¬ gone ⟨gid, name⟩ := by
  obtain ⟨hkeys, haddress⟩ := h.foldl_erase keys
  rw [hostsOf, hkeys, hostsAt, List.filterMap_filter, hostsOf, hostsAt, List.filter_filterMap]
  refine List.filterMap_congr fun key hkey => ?_
  obtain ⟨participant, hparticipant⟩ := (h.mem_keysOf name key).mp hkey
  by_cases hleaves : gone ⟨participant, name⟩ <;>
    simp [haddress, hparticipant, hgone key _ hparticipant, hleaves, Option.filter_some]

/-! ## The listing -/

theorem addresses_listing : arena.listing.map NodeRecord.address =
    arena.hosts.toList.flatMap fun entry => entry.2.map fun gid => ⟨gid, entry.1⟩ := by
  rw [listing, hosts, ExtTreeMap.toList_map, List.flatMap_map, List.map_flatMap]
  refine List.flatMap_congr fun entry hentry => ?_
  rw [List.map_filterMap, hostsAt, List.map_filterMap]
  refine List.filterMap_congr fun key hkey => ?_
  rw [← keysOf_of_mem_byName hentry, h.mem_keysOf] at hkey
  obtain ⟨participant, haddress⟩ := hkey
  change arena.address? key = _
  rw [haddress]
  rfl

theorem mem_slots_iff : key ∈ arena.byName.toList.flatMap (·.2) ↔ key ∈ arena.records := by
  rw [List.mem_flatMap, ExtTreeMap.mem_iff_isSome_getElem?]
  constructor
  · rintro ⟨entry, hentry, hkey⟩
    rw [← keysOf_of_mem_byName hentry] at hkey
    simpa [address?, get?] using h.isSome_address?_of_mem hkey
  · intro hlive
    obtain ⟨node, hnode⟩ := Option.isSome_iff_exists.mp hlive
    have hkey : key ∈ arena.keysOf node.name :=
      (h.mem_keysOf _ _).mpr ⟨node.participant, by simp [address?, get?, hnode, NodeRecord.address]⟩
    cases hentry : arena.byName[node.name]? with
    | none =>
      rw [keysOf, ExtTreeMap.getD_eq_getD_getElem?, hentry] at hkey
      cases hkey
    | some keys =>
      refine ⟨(node.name, keys), ExtTreeMap.mem_toList_iff_getElem?_eq_some.mpr hentry, ?_⟩
      rwa [keysOf_of_getElem? hentry] at hkey

theorem nodup_slots : (arena.byName.toList.flatMap (·.2)).Nodup := by
  refine List.nodup_flatMap.mpr ⟨fun entry hentry => ?_, ?_⟩
  · rw [← keysOf_of_mem_byName hentry]
    exact h.nodup_keysOf entry.1
  · -- A slot has one node, and this node has one name.
    refine ExtTreeMap.distinct_keys_toList.imp_of_mem ?_
    intro entry entry' hentry hentry' hne key hkey hkey'
    change key ∈ entry.2 at hkey
    change key ∈ entry'.2 at hkey'
    rw [← keysOf_of_mem_byName hentry, h.mem_keysOf] at hkey
    rw [← keysOf_of_mem_byName hentry', h.mem_keysOf] at hkey'
    obtain ⟨participant, haddress⟩ := hkey
    obtain ⟨participant', haddress'⟩ := hkey'
    have hname : entry.1 = entry'.1 :=
      congrArg NodeAddress.name (Option.some.inj (haddress.symm.trans haddress'))
    exact hne (hname ▸ Std.ReflCmp.compare_self)

theorem size_eq_length_listing : arena.size = arena.listing.length := by
  have hperm : arena.records.keys.Perm (arena.byName.toList.flatMap (·.2)) := by
    refine (List.perm_ext_iff_of_nodup ExtTreeMap.nodup_keys h.nodup_slots).mpr fun key => ?_
    rw [ExtTreeMap.mem_keys, h.mem_slots_iff]
  have hlisting : arena.listing = (arena.byName.toList.flatMap (·.2)).filterMap arena.get? :=
    List.filterMap_flatMap.symm
  rw [size, ← ExtTreeMap.length_keys, hperm.length_eq, hlisting, List.length_filterMap_eq_countP,
    List.countP_eq_length.mpr]
  intro key hkey
  rw [h.mem_slots_iff, ExtTreeMap.mem_iff_isSome_getElem?] at hkey
  exact hkey

end WellFormed

end DiscoveryGraph.NodeArena
