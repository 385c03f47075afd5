import Mathlib.Algebra.Group.Nat.Defs
import Mathlib.Data.List.Nodup
import Mathlib.Tactic.Tauto
import DiscoveryGraph.Snapshot

/-!
# Listings

Which node of a snapshot gets an endpoint that is listed more than once, and which snapshots list
no node twice. In these an entry owns exactly the endpoints that it lists first, and the names
tell the entries apart.
-/

namespace DiscoveryGraph

theorem Gid.nodup_of_pairwise {gids : List Gid} (h : gids.Pairwise (compare · · = .lt)) :
    gids.Nodup := by
  refine h.imp ?_
  rintro gid _ hlt rfl
  have hself : compare gid gid = .eq := Std.ReflCmp.compare_self
  rw [hself] at hlt
  cases hlt

/-- Two lists in strictly ascending order are equal when they have the same elements. -/
theorem Gid.eq_of_pairwise {gids gids' : List Gid} (h : gids.Pairwise (compare · · = .lt))
    (h' : gids'.Pairwise (compare · · = .lt)) (hmem : ∀ gid, gid ∈ gids ↔ gid ∈ gids') :
    gids = gids' := by
  have hperm : gids.Perm gids' :=
    (List.perm_ext_iff_of_nodup (nodup_of_pairwise h) (nodup_of_pairwise h')).mpr hmem
  refine hperm.eq_of_pairwise (fun gid gid' _ _ hlt hgt => ?_) h h'
  have hswap : compare gid gid' = (compare gid' gid).swap := Std.OrientedCmp.eq_swap
  rw [hswap, hgt] at hlt
  cases hlt

theorem NodeEntities.mem_ids {entry : NodeEntities} {id : EndpointId} :
    id ∈ entry.ids ↔ id.gid ∈ entry.listed id.kind := by
  obtain ⟨kind, gid⟩ := id
  cases kind <;> simp [ids, listed]

/-- A node of a snapshot is no more than its name and what it lists. -/
theorem NodeEntities.ext_listed {entry entry' : NodeEntities} (hnode : entry.node = entry'.node)
    (hlisted : ∀ kind, entry.listed kind = entry'.listed kind) : entry = entry' := by
  obtain ⟨node, readers, writers⟩ := entry
  obtain ⟨node', readers', writers'⟩ := entry'
  have hreaders : readers = readers' := hlisted .reader
  have hwriters : writers = writers' := hlisted .writer
  rw [show node = node' from hnode, hreaders, hwriters]

/-- The texts and lists of a node are short enough for their lengths to be written. -/
structure NodeEntities.Sized (entry : NodeEntities) : Prop where
  ns : (Bytes.ofText entry.node.ns).length < 2 ^ 64
  name : (Bytes.ofText entry.node.name).length < 2 ^ 64
  listed : ∀ kind, (entry.listed kind).length < 2 ^ 64

/-- The texts and lists of a snapshot are short enough for their lengths to be written. -/
structure Snapshot.Sized (snapshot : Snapshot) : Prop where
  nodes : snapshot.nodes.length < 2 ^ 64
  entries : ∀ entry ∈ snapshot.nodes, entry.Sized

instance (entry : NodeEntities) : Decidable entry.Sized :=
  decidable_of_iff
    ((Bytes.ofText entry.node.ns).length < 2 ^ 64 ∧ (Bytes.ofText entry.node.name).length < 2 ^ 64 ∧
      entry.readers.length < 2 ^ 64 ∧ entry.writers.length < 2 ^ 64)
    ⟨fun h => ⟨h.1, h.2.1, fun | .reader => h.2.2.1 | .writer => h.2.2.2⟩,
      fun h => ⟨h.ns, h.name, h.listed .reader, h.listed .writer⟩⟩

instance (snapshot : Snapshot) : Decidable snapshot.Sized :=
  decidable_of_iff (snapshot.nodes.length < 2 ^ 64 ∧ ∀ entry ∈ snapshot.nodes, entry.Sized)
    ⟨fun h => ⟨h.1, h.2⟩, fun h => ⟨h.nodes, h.entries⟩⟩

/-- A node of the snapshot lists the endpoint. -/
def Snapshot.Lists (snapshot : Snapshot) (id : EndpointId) : Prop :=
  ∃ entry ∈ snapshot.nodes, id ∈ entry.ids

instance (snapshot : Snapshot) (id : EndpointId) : Decidable (snapshot.Lists id) :=
  inferInstanceAs (Decidable (∃ entry ∈ snapshot.nodes, id ∈ entry.ids))

end DiscoveryGraph

namespace DiscoveryGraph.Snapshot

variable {snapshot : Snapshot} {entry : NodeEntities} {id : EndpointId} {name : NodeName}
  {seen names : List NodeName}

/-! ## Repeated names -/

theorem firstRepeated_eq_none_iff :
    firstRepeated seen names = none ↔ names.Nodup ∧ ∀ name ∈ names, name ∉ seen := by
  induction names generalizing seen with
  | nil => simp [firstRepeated]
  | cons name rest ih =>
    unfold firstRepeated
    by_cases hseen : name ∈ seen
    · simp [hseen]
    · rw [if_neg hseen, ih, List.nodup_cons, List.forall_mem_cons]
      constructor
      · rintro ⟨hrest, hfresh⟩
        refine ⟨⟨fun hmem => hfresh name hmem List.mem_cons_self, hrest⟩, hseen, ?_⟩
        exact fun next hnext hmem => hfresh next hnext (List.mem_cons_of_mem _ hmem)
      · rintro ⟨⟨hname, hrest⟩, -, hfresh⟩
        refine ⟨hrest, fun next hnext hmem => ?_⟩
        rcases List.mem_cons.mp hmem with rfl | hmem
        · exact hname hnext
        · exact hfresh next hnext hmem

/-- A snapshot is accepted exactly if its names are distinct. -/
theorem repeatedNode?_eq_none_iff : snapshot.repeatedNode? = none ↔ snapshot.names.Nodup := by
  simp [repeatedNode?, firstRepeated_eq_none_iff]

/-- The first repeated name has one of its like, and no repetition, to its left. -/
theorem firstRepeated_eq_some_iff : firstRepeated seen names = some name ↔
    ∃ earlier later, names = earlier ++ name :: later ∧ (name ∈ seen ∨ name ∈ earlier) ∧
      earlier.Nodup ∧ ∀ next ∈ earlier, next ∉ seen := by
  induction names generalizing seen with
  | nil => simp [firstRepeated]
  | cons first rest ih =>
    unfold firstRepeated
    by_cases hseen : first ∈ seen
    · rw [if_pos hseen, Option.some.injEq]
      constructor
      · rintro rfl
        exact ⟨[], rest, rfl, Or.inl hseen, List.nodup_nil, by simp⟩
      · rintro ⟨earlier, later, heq, -, -, hfresh⟩
        cases earlier with
        | nil => exact (List.cons.inj heq).1
        | cons head tail =>
          obtain ⟨rfl, -⟩ := List.cons.inj heq
          exact absurd hseen (hfresh first List.mem_cons_self)
    · rw [if_neg hseen, ih]
      constructor
      · rintro ⟨earlier, later, rfl, hbefore, hnodup, hfresh⟩
        have hfirst : first ∉ earlier := fun hmem => hfresh first hmem List.mem_cons_self
        refine ⟨first :: earlier, later, rfl, ?_, List.nodup_cons.mpr ⟨hfirst, hnodup⟩, ?_⟩
        · rw [List.mem_cons] at hbefore ⊢
          tauto
        · rintro next (_ | ⟨_, hnext⟩)
          · exact hseen
          · exact fun hmem => hfresh next hnext (List.mem_cons_of_mem _ hmem)
      · rintro ⟨earlier, later, heq, hbefore, hnodup, hfresh⟩
        cases earlier with
        | nil =>
          obtain ⟨rfl, -⟩ := List.cons.inj heq
          simp [hseen] at hbefore
        | cons head tail =>
          obtain ⟨rfl, rfl⟩ := List.cons.inj heq
          obtain ⟨hfirst, hnodup⟩ := List.nodup_cons.mp hnodup
          refine ⟨tail, later, rfl, ?_, hnodup, fun next hnext hmem => ?_⟩
          · rw [List.mem_cons] at hbefore ⊢
            tauto
          · rcases List.mem_cons.mp hmem with rfl | hmem
            · exact hfirst hnext
            · exact hfresh next (List.mem_cons_of_mem _ hnext) hmem

/-- A snapshot is refused because of the first name that also stands further to the left. -/
theorem repeatedNode?_eq_some_iff : snapshot.repeatedNode? = some name ↔
    ∃ earlier later, snapshot.names = earlier ++ name :: later ∧ name ∈ earlier ∧ earlier.Nodup := by
  simp [repeatedNode?, firstRepeated_eq_some_iff]

/-! ## Owners -/

theorem isSome_owner?_iff : (snapshot.owner? id).isSome ↔ snapshot.Lists id := by
  simp [owner?, Lists]

/-- The owner of an endpoint is a node of the snapshot that lists it. -/
theorem exists_entry_of_owner? (howner : snapshot.owner? id = some name) :
    ∃ entry ∈ snapshot.nodes, entry.node = name ∧ id ∈ entry.ids := by
  obtain ⟨entry, hfind, hnode⟩ := Option.map_eq_some_iff.mp howner
  exact ⟨entry, List.mem_of_find?_eq_some hfind, hnode, by simpa using List.find?_some hfind⟩

theorem mem_names_of_owner? (howner : snapshot.owner? id = some name) : name ∈ snapshot.names := by
  obtain ⟨entry, hentry, rfl, -⟩ := exists_entry_of_owner? howner
  exact List.mem_map_of_mem hentry

theorem lists_of_owner? (howner : snapshot.owner? id = some name) : snapshot.Lists id :=
  isSome_owner?_iff.mp (by simp [howner])

theorem owner?_eq_some_iff (hnodup : snapshot.names.Nodup) (hentry : entry ∈ snapshot.nodes) :
    snapshot.owner? id = some entry.node ↔
      (snapshot.nodes.find? fun entry => id ∈ entry.ids) = some entry := by
  unfold owner?
  rw [Option.map_eq_some_iff]
  constructor
  · rintro ⟨other, hfind, hnode⟩
    rw [hfind, List.inj_on_of_nodup_map hnodup (List.mem_of_find?_eq_some hfind) hentry hnode]
  · intro hfind
    exact ⟨entry, hfind, rfl⟩

theorem mem_ofList_owned_iff (hnodup : snapshot.names.Nodup) (hentry : entry ∈ snapshot.nodes)
    (id : EndpointId) :
    id ∈ Std.ExtTreeSet.ofList (snapshot.owned entry) ↔ snapshot.owner? id = some entry.node := by
  rw [Std.ExtTreeSet.mem_ofList, List.contains_iff_mem]
  simp only [owned, List.mem_filter, decide_eq_true_eq, and_iff_right_iff_imp]
  intro howner
  have hfind := (owner?_eq_some_iff hnodup hentry).mp howner
  simpa using List.find?_some hfind

/-! ## Snapshots with the same names -/

/-- Two snapshots have the same of their nodes, in the same order, when their names are the same
and nodes of one name do not differ. -/
theorem map_nodes_eq {α : Type} {f : NodeEntities → α} {other : Snapshot}
    (hnames : snapshot.names = other.names)
    (hsame : ∀ entry ∈ snapshot.nodes, ∀ entry' ∈ other.nodes, entry.node = entry'.node →
      f entry = f entry') : snapshot.nodes.map f = other.nodes.map f := by
  have hlength : snapshot.nodes.length = other.nodes.length := by
    simpa [Snapshot.names] using congrArg List.length hnames
  refine List.ext_getElem (by simpa using hlength) fun i hi hi' => ?_
  rw [List.getElem_map, List.getElem_map]
  refine hsame _ (List.getElem_mem _) _ (List.getElem_mem _) ?_
  have hname := List.getElem_of_eq hnames (i := i) (by simpa [Snapshot.names] using hi)
  simpa [Snapshot.names] using hname

/-- Two snapshots of one participant are equal when their names are the same and nodes of one name
do not differ. -/
theorem ext_nodes {other : Snapshot} (hgid : snapshot.gid = other.gid)
    (hnames : snapshot.names = other.names)
    (hsame : ∀ entry ∈ snapshot.nodes, ∀ entry' ∈ other.nodes, entry.node = entry'.node →
      entry = entry') : snapshot = other := by
  have hnodes : snapshot.nodes.map id = other.nodes.map id := map_nodes_eq hnames hsame
  rw [List.map_id, List.map_id] at hnodes
  obtain ⟨gid, nodes⟩ := snapshot
  obtain ⟨gid', nodes'⟩ := other
  rw [show gid = gid' from hgid, show nodes = nodes' from hnodes]

/-- Two snapshots have the same nodes, up to their order, when their names are the same, each of
them once, and nodes of one name do not differ. -/
theorem perm_nodes {other : Snapshot} (hnodup : snapshot.names.Nodup)
    (hnames : snapshot.names.Perm other.names)
    (hsame : ∀ entry ∈ snapshot.nodes, ∀ entry' ∈ other.nodes, entry.node = entry'.node →
      entry = entry') : snapshot.nodes.Perm other.nodes := by
  have hnodup' : other.names.Nodup := hnames.nodup_iff.mp hnodup
  refine (List.perm_ext_iff_of_nodup (.of_map _ hnodup) (.of_map _ hnodup')).mpr fun entry => ?_
  constructor
  · intro hentry
    have hname : entry.node ∈ other.names := hnames.mem_iff.mp (List.mem_map_of_mem hentry)
    obtain ⟨entry', hentry', hnode⟩ := List.mem_map.mp hname
    exact hsame entry hentry entry' hentry' hnode.symm ▸ hentry'
  · intro hentry
    have hname : entry.node ∈ snapshot.names := hnames.mem_iff.mpr (List.mem_map_of_mem hentry)
    obtain ⟨entry', hentry', hnode⟩ := List.mem_map.mp hname
    exact hsame entry' hentry' entry hentry hnode ▸ hentry'

end DiscoveryGraph.Snapshot
