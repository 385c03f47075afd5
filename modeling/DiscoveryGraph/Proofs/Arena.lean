import Mathlib
import DiscoveryGraph.NodeArena

/-!
# The arena as addresses and memberships

An arena is seen through two views: the address of the node in a slot, which is its participant
and its name, and which endpoints the node in a slot lists. Creating and removing a node changes
only addresses, attaching and detaching an endpoint only memberships. Apart from the supply of
slots and the index of names, the two views are all that there is to an arena (`ext`).

`WellFormed` ties the supply of slots and the index of names to the addresses: a slot that is
handed out is vacant, and the index lists exactly the nodes of each name, each of them once. Every
operation of the arena keeps it. When no two nodes have the same address, `find?` inverts
`address?` (`find?_eq_some_iff`).
-/

namespace DiscoveryGraph

/-! ## The supply of slots -/

namespace SlotPool

/-- No slot is handed out twice without having been given back. -/
structure WellFormed (pool : SlotPool) : Prop where
  free_nodup : pool.free.Nodup
  free_lt : ∀ key ∈ pool.free, key < pool.next

variable {pool : SlotPool} {key other : NodeKey}

theorem WellFormed.fresh (policy : SlotPolicy) : (fresh policy).WellFormed :=
  ⟨by simp [SlotPool.fresh], by simp [SlotPool.fresh]⟩

theorem take_eq_next_or_mem_free (pool : SlotPool) :
    pool.take.1 = pool.next ∨ pool.take.1 ∈ pool.free := by
  unfold take
  split <;> simp_all

theorem next_le_take (pool : SlotPool) : pool.next ≤ pool.take.2.next := by
  unfold take
  split <;> simp

@[simp] theorem next_release (pool : SlotPool) (key : NodeKey) :
    (pool.release key).next = pool.next := by
  unfold release
  split <;> rfl

theorem mem_free_release (pool : SlotPool) (h : other ∈ (pool.release key).free) :
    other = key ∨ other ∈ pool.free := by
  unfold release at h
  split at h
  · exact List.mem_cons.mp h
  · exact Or.inr h

namespace WellFormed

theorem mem_free_take (h : pool.WellFormed) (hkey : key ∈ pool.take.2.free) :
    key ∈ pool.free ∧ key ≠ pool.take.1 := by
  have hnodup := h.free_nodup
  unfold SlotPool.take at hkey ⊢
  split at hkey
  · rename_i first rest heq
    rw [heq] at hnodup
    simp only [heq, List.mem_cons]
    exact ⟨Or.inr hkey, fun he => (List.nodup_cons.mp hnodup).1 (he ▸ hkey)⟩
  · rename_i heq
    simp [heq] at hkey

theorem take_lt (h : pool.WellFormed) : pool.take.1 < pool.take.2.next := by
  have hlt := h.free_lt
  unfold SlotPool.take
  split
  · rename_i first rest heq
    exact hlt first (by simp [heq])
  · exact Nat.lt_succ_self _

theorem take (h : pool.WellFormed) : pool.take.2.WellFormed where
  free_nodup := by
    have hnodup := h.free_nodup
    unfold SlotPool.take
    split <;> simp_all
  free_lt key hkey :=
    Nat.lt_of_lt_of_le (h.free_lt key (h.mem_free_take hkey).1) pool.next_le_take

theorem release (h : pool.WellFormed) (hused : key ∉ pool.free) (hlt : key < pool.next) :
    (pool.release key).WellFormed where
  free_nodup := by
    unfold SlotPool.release
    split
    · exact List.nodup_cons.mpr ⟨hused, h.free_nodup⟩
    · exact h.free_nodup
  free_lt other hother := by
    rw [next_release]
    rcases pool.mem_free_release hother with heq | hfree
    · exact heq ▸ hlt
    · exact h.free_lt other hfree

end WellFormed

end SlotPool

/-! ## Addresses and memberships -/

/-- Where a node is found: the participant that hosts it, and its name. -/
@[ext]
structure NodeAddress where
  participant : Gid
  name : NodeName
deriving DecidableEq

namespace NodeRecord

/-- Where the node is found. -/
def address (node : NodeRecord) : NodeAddress :=
  ⟨node.participant, node.name⟩

variable {node : NodeRecord} {kind : EndpointKind} {gid : Gid}

theorem mem_listed : gid ∈ node.listed kind ↔ (⟨kind, gid⟩ : EndpointId) ∈ node.endpoints := by
  simp only [listed, List.mem_map, List.mem_filter, Std.ExtTreeSet.mem_toList, decide_eq_true_eq]
  constructor
  · rintro ⟨id, ⟨hid, rfl⟩, rfl⟩
    exact hid
  · intro hid
    exact ⟨_, ⟨hid, rfl⟩, rfl⟩

/-- The identifiers of one kind are listed in ascending order, none of them twice. -/
theorem pairwise_listed (node : NodeRecord) (kind : EndpointKind) :
    (node.listed kind).Pairwise (compare · · = .lt) := by
  refine List.pairwise_map.mpr ?_
  refine ((Std.ExtTreeSet.ordered_toList (t := node.endpoints)).filter _).imp_of_mem ?_
  intro id next hid hnext hlt
  have hkind : id.kind = next.kind := by
    rw [of_decide_eq_true (List.mem_filter.mp hid).2,
      of_decide_eq_true (List.mem_filter.mp hnext).2]
  have hthen : (compare id.kind next.kind).then (compare id.gid next.gid) = .lt := hlt
  have hsame : compare id.kind next.kind = .eq := hkind ▸ Std.ReflCmp.compare_self
  rwa [hsame] at hthen

end NodeRecord

namespace NodeArena

/-- The address of the node in a slot. -/
def address? (arena : NodeArena) (key : NodeKey) : Option NodeAddress :=
  (arena.get? key).map NodeRecord.address

/-- The node in slot `key` lists the endpoint. -/
def Lists (arena : NodeArena) (key : NodeKey) (id : EndpointId) : Prop :=
  ∃ node, arena.get? key = some node ∧ id ∈ node.endpoints

variable {arena : NodeArena} {key other : NodeKey} {participant : Gid} {name : NodeName}
  {id next : EndpointId}

theorem address?_eq_none_iff : arena.address? key = none ↔ arena.get? key = none := by
  simp [address?]

theorem address?_eq_some_iff {address : NodeAddress} :
    arena.address? key = some address ↔
      ∃ node, arena.get? key = some node ∧ node.address = address := by
  simp [address?]

theorem Lists.address? (h : arena.Lists key id) : ∃ address, arena.address? key = some address := by
  obtain ⟨node, hnode, _⟩ := h
  exact ⟨node.address, by simp [NodeArena.address?, hnode]⟩

/-! ## What the operations do to the node in a slot -/

theorem get?_insert :
    (arena.insert participant name).2.get? key =
      if (arena.insert participant name).1 = key then some (.bare participant name)
      else arena.get? key := by
  simp only [insert, get?, Std.ExtTreeMap.getElem?_insert, Std.LawfulEqCmp.compare_eq_iff_eq]
  split <;> simp_all

theorem get?_erase :
    (arena.erase key).get? other = if key = other then none else arena.get? other := by
  unfold erase
  split
  · rename_i h
    split
    · rename_i heq
      rw [← heq, h]
    · rfl
  · simp [get?, Std.ExtTreeMap.getElem?_erase]

theorem get?_attach :
    (arena.attach key id).get? other =
      if key = other then
        (arena.get? other).map fun node => { node with endpoints := node.endpoints.insert id }
      else arena.get? other := by
  simp only [attach, get?, Std.ExtTreeMap.getElem?_modify, Std.LawfulEqCmp.compare_eq_iff_eq]
  split
  · rename_i heq
    rw [heq]
  · rfl

theorem get?_detach :
    (arena.detach key id).get? other =
      if key = other then
        (arena.get? other).map fun node => { node with endpoints := node.endpoints.erase id }
      else arena.get? other := by
  simp only [detach, get?, Std.ExtTreeMap.getElem?_modify, Std.LawfulEqCmp.compare_eq_iff_eq]
  split
  · rename_i heq
    rw [heq]
  · rfl

/-! ## What they do to addresses -/

theorem address?_insert :
    (arena.insert participant name).2.address? key =
      if (arena.insert participant name).1 = key then some ⟨participant, name⟩
      else arena.address? key := by
  simp only [address?, get?_insert]
  split <;> rfl

theorem address?_erase :
    (arena.erase key).address? other = if key = other then none else arena.address? other := by
  simp only [address?, get?_erase]
  split <;> rfl

@[simp] theorem address?_attach : (arena.attach key id).address? other = arena.address? other := by
  simp only [address?, get?_attach]
  split
  · rw [Option.map_map]
    rfl
  · rfl

@[simp] theorem address?_detach : (arena.detach key id).address? other = arena.address? other := by
  simp only [address?, get?_detach]
  split
  · rw [Option.map_map]
    rfl
  · rfl

/-! ## What they do to memberships -/

theorem lists_insert (hvacant : arena.address? (arena.insert participant name).1 = none) :
    (arena.insert participant name).2.Lists key id ↔ arena.Lists key id := by
  simp only [Lists, get?_insert]
  split
  · rename_i heq
    rw [address?_eq_none_iff, heq] at hvacant
    simp [hvacant, NodeRecord.bare]
  · rfl

theorem lists_erase : (arena.erase key).Lists other id ↔ key ≠ other ∧ arena.Lists other id := by
  simp only [Lists, get?_erase]
  split <;> simp_all

theorem lists_attach :
    (arena.attach key id).Lists other next ↔
      arena.Lists other next ∨
        (other = key ∧ next = id ∧ ∃ address, arena.address? key = some address) := by
  simp only [Lists, get?_attach, address?_eq_some_iff]
  split
  · rename_i heq
    subst heq
    cases h : arena.get? key with
    | none => simp
    | some node => simp [or_comm, eq_comm (a := id)]
  · rename_i hne
    simp [Ne.symm hne]

theorem lists_detach :
    (arena.detach key id).Lists other next ↔
      arena.Lists other next ∧ ¬ (other = key ∧ next = id) := by
  simp only [Lists, get?_detach]
  split
  · rename_i heq
    subst heq
    cases h : arena.get? key with
    | none => simp
    | some node => simp [and_comm, eq_comm (a := id)]
  · rename_i hne
    simp [Ne.symm hne]

/-- An arena is no more than its slots, its index, its addresses and its memberships. -/
theorem ext {a b : NodeArena} (hslots : a.slots = b.slots) (hbyName : a.byName = b.byName)
    (haddress : ∀ key, a.address? key = b.address? key)
    (hlists : ∀ key id, a.Lists key id ↔ b.Lists key id) : a = b := by
  have hrecords : a.records = b.records := by
    apply Std.ExtTreeMap.ext_getElem?
    intro key
    have hkey := haddress key
    have hids := hlists key
    unfold Lists at hids
    unfold address? at hkey
    change a.get? key = b.get? key
    cases ha : a.get? key with
    | none => cases hb : b.get? key with
      | none => rfl
      | some node => simp [ha, hb] at hkey
    | some node => cases hb : b.get? key with
      | none => simp [ha, hb] at hkey
      | some node' =>
        simp only [ha, hb, Option.map_some, Option.some.injEq, NodeRecord.address,
          NodeAddress.mk.injEq] at hkey
        simp only [ha, hb, Option.some.injEq, exists_eq_left'] at hids
        obtain ⟨p, n, ids⟩ := node
        obtain ⟨p', n', ids'⟩ := node'
        have : ids = ids' := Std.ExtTreeSet.ext_mem hids
        simp_all
  cases a
  cases b
  simp_all

/-! ## Slots and index -/

theorem keysOf_insert (other : NodeName) :
    (arena.insert participant name).2.keysOf other =
      if name = other then arena.keysOf name ++ [(arena.insert participant name).1]
      else arena.keysOf other := by
  simp only [keysOf, insert, Std.ExtTreeMap.getD_insert, Std.LawfulEqCmp.compare_eq_iff_eq]

theorem keysOf_erase {node : NodeRecord} (h : arena.get? key = some node) (other : NodeName) :
    (arena.erase key).keysOf other =
      if node.name = other then (arena.keysOf other).filter (· ≠ key) else arena.keysOf other := by
  simp only [keysOf, erase, h, unindex]
  split
  · rename_i hnil
    rw [Std.ExtTreeMap.getD_erase]
    simp only [Std.LawfulEqCmp.compare_eq_iff_eq]
    split
    · rename_i heq
      rw [← heq, hnil]
    · rfl
  · rw [Std.ExtTreeMap.getD_insert]
    simp only [Std.LawfulEqCmp.compare_eq_iff_eq]
    split
    · rename_i heq
      rw [← heq]
    · rfl

theorem unindex_ne_nil {byName : Std.ExtTreeMap NodeName (List NodeKey)}
    (h : ∀ name : NodeName, byName[name]? ≠ some []) (name : NodeName) (key : NodeKey)
    (other : NodeName) : (unindex byName name key)[other]? ≠ some [] := by
  unfold unindex
  split
  · rw [Std.ExtTreeMap.getElem?_erase]
    split
    · simp
    · exact h other
  · rename_i hne
    rw [Std.ExtTreeMap.getElem?_insert]
    split
    · exact fun heq => hne (Option.some.inj heq)
    · exact h other

/-- The supply of slots and the index of names agree with the addresses. -/
structure WellFormed (arena : NodeArena) : Prop where
  slots : arena.slots.WellFormed
  free_vacant : ∀ key ∈ arena.slots.free, arena.address? key = none
  lt_next : ∀ key address, arena.address? key = some address → key < arena.slots.next
  mem_keysOf : ∀ name key, key ∈ arena.keysOf name ↔
    ∃ participant, arena.address? key = some ⟨participant, name⟩
  nodup_keysOf : ∀ name, (arena.keysOf name).Nodup
  entry_ne_nil : ∀ name : NodeName, arena.byName[name]? ≠ some []

theorem wellFormed_empty (policy : SlotPolicy) : (empty policy).WellFormed where
  slots := .fresh policy
  free_vacant := by simp [empty, SlotPool.fresh]
  lt_next := by simp [empty, address?, get?]
  mem_keysOf := by simp [keysOf, empty, address?, get?]
  nodup_keysOf := by simp [keysOf, empty]
  entry_ne_nil := by simp [empty]

namespace WellFormed

/-- Well-formedness is about slots, index and addresses only. -/
theorem congr {a b : NodeArena} (h : a.WellFormed) (hslots : b.slots = a.slots)
    (hbyName : b.byName = a.byName) (haddress : ∀ key, b.address? key = a.address? key) :
    b.WellFormed where
  slots := hslots ▸ h.slots
  free_vacant key hkey := by
    rw [haddress]
    exact h.free_vacant key (hslots ▸ hkey)
  lt_next key address hkey := by
    rw [haddress] at hkey
    exact hslots ▸ h.lt_next key address hkey
  mem_keysOf name key := by
    rw [haddress, keysOf, hbyName]
    exact h.mem_keysOf name key
  nodup_keysOf name := by
    rw [keysOf, hbyName]
    exact h.nodup_keysOf name
  entry_ne_nil := hbyName ▸ h.entry_ne_nil

/-- The slot of a new node is vacant. -/
theorem vacant_insert (h : arena.WellFormed) (participant : Gid) (name : NodeName) :
    arena.address? (arena.insert participant name).1 = none := by
  rcases arena.slots.take_eq_next_or_mem_free with hnext | hfree
  · cases hkey : arena.address? (arena.insert participant name).1 with
    | none => rfl
    | some address => exact absurd (hnext ▸ h.lt_next _ _ hkey) (Nat.lt_irrefl _)
  · exact h.free_vacant _ hfree

theorem insert (h : arena.WellFormed) (participant : Gid) (name : NodeName) :
    (arena.insert participant name).2.WellFormed := by
  have hvacant := h.vacant_insert participant name
  have hnew : (arena.insert participant name).1 ∉ arena.keysOf name := by
    rw [h.mem_keysOf, hvacant]
    simp
  exact {
    slots := h.slots.take
    free_vacant := by
      intro key hkey
      obtain ⟨hfree, hne⟩ := h.slots.mem_free_take hkey
      have hother : (arena.insert participant name).1 ≠ key := Ne.symm hne
      rw [address?_insert, if_neg hother]
      exact h.free_vacant key hfree
    lt_next := by
      intro key address hkey
      rw [address?_insert] at hkey
      split at hkey
      · rename_i heq
        exact heq ▸ h.slots.take_lt
      · exact Nat.lt_of_lt_of_le (h.lt_next key address hkey) arena.slots.next_le_take
    mem_keysOf := by
      intro other key
      rw [keysOf_insert, address?_insert]
      by_cases hname : name = other
      · subst hname
        by_cases hkey : (arena.insert participant name).1 = key
        · simp [hkey]
        · simp [hkey, Ne.symm hkey, h.mem_keysOf]
      · by_cases hkey : (arena.insert participant name).1 = key
        · rw [if_neg hname, if_pos hkey, h.mem_keysOf, ← hkey, hvacant]
          simp [hname]
        · rw [if_neg hname, if_neg hkey, h.mem_keysOf]
    nodup_keysOf := by
      intro other
      rw [keysOf_insert]
      split
      · exact List.nodup_append.mpr ⟨h.nodup_keysOf name, by simp, by
          intro a ha b hb hab
          rw [List.mem_singleton.mp hb] at hab
          exact hnew (hab ▸ ha)⟩
      · exact h.nodup_keysOf other
    entry_ne_nil := by
      intro other
      simp only [NodeArena.insert, Std.ExtTreeMap.getElem?_insert]
      split
      · simp
      · exact h.entry_ne_nil other }

theorem erase (h : arena.WellFormed) (key : NodeKey) : (arena.erase key).WellFormed := by
  cases hnode : arena.get? key with
  | none =>
    have hsame : arena.erase key = arena := by simp [NodeArena.erase, hnode]
    rw [hsame]
    exact h
  | some node =>
    have hslots : (arena.erase key).slots = arena.slots.release key := by
      simp [NodeArena.erase, hnode]
    have haddress : arena.address? key = some ⟨node.participant, node.name⟩ := by
      simp [address?, hnode, NodeRecord.address]
    have hused : key ∉ arena.slots.free := by
      intro hfree
      rw [h.free_vacant key hfree] at haddress
      cases haddress
    exact {
      slots := hslots ▸ h.slots.release hused (h.lt_next key _ haddress)
      free_vacant := by
        intro other hother
        rw [address?_erase]
        split
        · rfl
        · rename_i hne
          rw [hslots] at hother
          rcases arena.slots.mem_free_release hother with heq | hfree
          · exact absurd heq.symm hne
          · exact h.free_vacant other hfree
      lt_next := by
        intro other address hother
        rw [address?_erase] at hother
        split at hother
        · cases hother
        · rw [hslots, SlotPool.next_release]
          exact h.lt_next other address hother
      mem_keysOf := by
        intro name other
        rw [keysOf_erase hnode, address?_erase]
        by_cases hkey : key = other
        · subst hkey
          rw [if_pos rfl]
          split
          · simp
          · rename_i hname
            rw [h.mem_keysOf, haddress]
            simp [hname]
        · rw [if_neg hkey, ← h.mem_keysOf]
          split
          · simp [Ne.symm hkey]
          · rfl
      nodup_keysOf := by
        intro name
        rw [keysOf_erase hnode]
        split
        · exact (h.nodup_keysOf name).filter _
        · exact h.nodup_keysOf name
      entry_ne_nil := by
        simp only [NodeArena.erase, hnode]
        exact unindex_ne_nil h.entry_ne_nil node.name key }

end WellFormed

/-- A node is found under its participant and its name, and nothing else is. -/
theorem WellFormed.find?_eq_some_iff (h : arena.WellFormed)
    (hinj : ∀ key other address, arena.address? key = some address →
      arena.address? other = some address → key = other) :
    arena.find? participant name = some key ↔ arena.address? key = some ⟨participant, name⟩ := by
  have hhosted : ∀ key ∈ arena.keysOf name,
      ((arena.get? key).any (·.participant = participant) = true ↔
        arena.address? key = some ⟨participant, name⟩) := by
    intro key hkey
    obtain ⟨owner, howner⟩ := (h.mem_keysOf name key).mp hkey
    obtain ⟨node, hnode, heq⟩ := address?_eq_some_iff.mp howner
    simp only [NodeRecord.address, NodeAddress.mk.injEq] at heq
    rw [howner, hnode]
    simp [heq.1]
  constructor
  · intro hfind
    have hmem := List.mem_of_find?_eq_some hfind
    have hany := List.find?_some hfind
    exact (hhosted key hmem).mp hany
  · intro haddress
    have hmem : key ∈ arena.keysOf name := (h.mem_keysOf name key).mpr ⟨_, haddress⟩
    cases hfind : arena.find? participant name with
    | none =>
      have := List.find?_eq_none.mp hfind key hmem
      exact absurd ((hhosted key hmem).mpr haddress) this
    | some other =>
      have hany := List.find?_some hfind
      have hother := (hhosted other (List.mem_of_find?_eq_some hfind)).mp hany
      rw [hinj _ _ _ hother haddress]

end NodeArena

end DiscoveryGraph
