import DiscoveryGraph.Proofs.Discovery
import DiscoveryGraph.Proofs.Refusals

/-!
# Commands about different endpoints

Announcing, forgetting, attaching and detaching an endpoint are about this endpoint alone.
`Standing` is all that a graph says about one endpoint. `Concerns` states what such a command does
in terms of it: the answer and the new standing of the endpoint follow from its standing before and
from where nodes are, and neither the nodes nor the standing of other endpoints change. So two
commands about different endpoints do not notice each other, though both may write to the list of
one node.

* `WellFormed.ext_standing`: a graph is its nodes and the standing of its endpoints.
* `WellFormed.concerns`: what the four kinds of commands do.
* `perform_comm`: commands about different endpoints in either order.
-/

namespace DiscoveryGraph

open DiscoveryGraph.Graph

/-- All that a graph says about one endpoint. -/
@[ext]
structure Standing where
  /-- The topic and the type, if the endpoint is known. -/
  names : Option (String × String)
  /-- The slot of the node that it belongs to. -/
  link : Option NodeKey
  /-- The slot of the node that waits for it. -/
  pending : Option NodeKey

/-- What the graph says about an endpoint. -/
def Graph.standing (g : Graph) (id : EndpointId) : Standing :=
  ⟨g.topicAndType? id, g.link? id, g.pending[id]?⟩

namespace Command

/-- The endpoint that a command is about, if it is about an endpoint. -/
def endpoint? : Command → Option EndpointId
  | addEndpoint id _ _ => some id
  | removeEndpoint id => some id
  | associate id _ _ => some id
  | dissociate id _ _ => some id
  | _ => none

/-- What a command about an endpoint makes of the standing of this endpoint. -/
def revise (g : Graph) (before : Standing) : Command → Standing
  | addEndpoint _ topic type =>
    if before.names.isSome then before else ⟨some (topic, type), before.pending, none⟩
  | removeEndpoint _ => ⟨none, none, before.pending⟩
  | associate _ gid node => { before with
      link := match g.find gid node with
        | .ok key => if before.names.isSome then some key else before.link
        | .error _ => before.link }
  | dissociate _ gid node => { before with
      link := match g.find gid node with
        | .ok key => if before.link = some key then none else before.link
        | .error _ => before.link }
  | _ => before

/-- What a command about an endpoint answers. -/
def verdict (g : Graph) (before : Standing) : Command → Except GraphError Answer
  | addEndpoint id _ _ =>
    if before.names.isSome then .error (.duplicateEndpoint id) else .ok .done
  | removeEndpoint id => if before.names.isSome then .ok .done else .error (.unknownEndpoint id)
  | associate id gid node | dissociate id gid node =>
    match g.find gid node with
    | .ok _ => if before.names.isSome then .ok .done else .error (.unknownEndpoint id)
    | .error error => .error error
  | _ => .ok .done

end Command

namespace Graph

variable {g g' : Graph} {id next : EndpointId} {c d : Command}

/-! ## Graphs from the standing of their endpoints -/

theorem isSome_names_standing_iff : (g.standing id).names.isSome ↔ id ∈ g.endpoints :=
  mem_endpoints_iff.symm

/-- Two well-formed graphs with the same nodes are equal when they say the same about every
endpoint. -/
theorem WellFormed.ext_standing (h : g.WellFormed) (h' : g'.WellFormed) (hn : SameNodes g g')
    (hprefs : g'.prefs = g.prefs) (hwatched : g'.watched = g.watched)
    (hstanding : ∀ id, g'.standing id = g.standing id) : g' = g := by
  have hnames : ∀ id, g'.topicAndType? id = g.topicAndType? id :=
    fun id => congrArg Standing.names (hstanding id)
  exact h.ext h' ⟨⟨hnames, hprefs, hwatched⟩, hn⟩
    (fun id => congrArg Standing.link (hstanding id))
    fun id => congrArg Standing.pending (hstanding id)

namespace SameNodes

variable (hn : SameNodes g g')
include hn

theorem find (gid : Gid) (node : NodeName) : g'.find gid node = g.find gid node := by
  rw [Graph.find, Graph.find, hn.participants, hn.find?]

theorem revise (before : Standing) (c : Command) : c.revise g' before = c.revise g before := by
  cases c <;> simp only [Command.revise, hn.find]

theorem verdict (before : Standing) (c : Command) : c.verdict g' before = c.verdict g before := by
  cases c <;> simp only [Command.verdict, hn.find]

end SameNodes

/-! ## What one command does -/

/-- What a command does that is about the endpoint `id` only. -/
structure Concerns (g : Graph) (id : EndpointId) (c : Command) : Prop where
  sameNodes : SameNodes g (g.perform c).graph
  prefs : (g.perform c).graph.prefs = g.prefs
  watched : (g.perform c).graph.watched = g.watched
  standing : (g.perform c).graph.standing id = c.revise g (g.standing id)
  others : ∀ next, next ≠ id → (g.perform c).graph.standing next = g.standing next
  result : (g.perform c).result = c.verdict g (g.standing id)
  told : (g.perform c).Told g

theorem WellFormed.concerns_addEndpoint (h : g.WellFormed) (id : EndpointId)
    (topic type : String) : g.Concerns id (.addEndpoint id topic type) := by
  have hresult : (g.perform (.addEndpoint id topic type)).result =
      Command.verdict g (g.standing id) (.addEndpoint id topic type) := by
    simp only [Graph.perform, Outcome.map, result_addEndpoint, Command.verdict,
      isSome_names_standing_iff]
    split <;> rfl
  have htold : (g.perform (.addEndpoint id topic type)).Told g :=
    (h.told_addEndpoint id topic type).map _
  by_cases hid : id ∈ g.endpoints
  · have hsame : (g.perform (.addEndpoint id topic type)).graph = g := graph_addEndpoint_of_mem hid
    exact {
      sameNodes := by
        rw [hsame]
        exact .refl g
      prefs := by rw [hsame]
      watched := by rw [hsame]
      standing := by rw [hsame, Command.revise, if_pos (isSome_names_standing_iff.mpr hid)]
      others := fun next _ => by rw [hsame]
      result := hresult
      told := htold }
  · have ha := announced_addEndpoint h hid topic type
    exact {
      sameNodes := ha.toSameNodes
      prefs := ha.prefs
      watched := ha.watched
      standing := by
        rw [Command.revise, if_neg (mt isSome_names_standing_iff.mp hid)]
        exact Standing.ext ((ha.topicAndType? id).trans (if_pos rfl))
          ((ha.link? id).trans (if_pos rfl)) ((ha.pending id).trans (if_pos rfl))
      others := fun next hnext => Standing.ext ((ha.topicAndType? next).trans (if_neg hnext))
        ((ha.link? next).trans (if_neg hnext)) ((ha.pending next).trans (if_neg hnext))
      result := hresult
      told := htold }

theorem concerns_removeEndpoint (g : Graph) (id : EndpointId) :
    g.Concerns id (.removeEndpoint id) := by
  have hf := forgotten_removeEndpoint g id
  have hpending : ∀ next : EndpointId,
      (g.removeEndpoint id).graph.pending[next]? = g.pending[next]? := fun next => by
    rw [hf.pending]
  exact {
    sameNodes := hf.toSameNodes
    prefs := hf.prefs
    watched := hf.watched
    standing := Standing.ext ((hf.topicAndType? id).trans (if_pos rfl))
      ((hf.link? id).trans (if_pos rfl)) (hpending id)
    others := fun next hnext => Standing.ext ((hf.topicAndType? next).trans (if_neg hnext))
      ((hf.link? next).trans (if_neg hnext)) (hpending next)
    result := by
      simp only [perform, Outcome.map, result_removeEndpoint, Command.verdict,
        isSome_names_standing_iff]
      split <;> rfl
    told := (g.told_removeEndpoint id).map _ }

section Associations

/-- A command that changes at most the link of the endpoint is about this endpoint only. -/
theorem concerns_of_rewired {link : Option NodeKey} (hr : Rewired g (g.perform c).graph)
    (hpending : (g.perform c).graph.pending = g.pending)
    (hrevise : c.revise g (g.standing id) = { g.standing id with link })
    (hlink : ∀ next, (g.perform c).graph.link? next = if next = id then link else g.link? next)
    (hresult : (g.perform c).result = c.verdict g (g.standing id))
    (htold : (g.perform c).Told g) : g.Concerns id c where
  sameNodes := hr.toSameNodes
  prefs := hr.prefs
  watched := hr.watched
  standing := by
    rw [hrevise]
    exact Standing.ext (hr.topicAndType? id) ((hlink id).trans (if_pos rfl))
      (congrArg (·[id]?) hpending)
  others next hnext := Standing.ext (hr.topicAndType? next) ((hlink next).trans (if_neg hnext))
    (congrArg (·[next]?) hpending)
  result := hresult
  told := htold

variable (id : EndpointId) (gid : Gid) (node : NodeName)

theorem result_associate : (g.associate id gid node).result =
    match g.find gid node with
    | .ok _ => if id ∈ g.endpoints then .ok () else .error (.unknownEndpoint id)
    | .error error => .error error := by
  unfold associate
  cases g.find gid node with
  | error error => rfl
  | ok key =>
    by_cases hid : id ∈ g.endpoints
    · simp only [hid, not_true_eq_false, if_false, if_true]
      split <;> rfl
    · simp [hid]

theorem result_dissociate : (g.dissociate id gid node).result =
    match g.find gid node with
    | .ok _ => if id ∈ g.endpoints then .ok () else .error (.unknownEndpoint id)
    | .error error => .error error := by
  unfold dissociate
  cases g.find gid node with
  | error error => rfl
  | ok key =>
    by_cases hid : id ∈ g.endpoints
    · simp only [hid, not_true_eq_false, if_false, if_true]
      split <;> rfl
    · simp [hid]

/-- The link of an endpoint that stays where it is. -/
theorem link?_kept (next : EndpointId) :
    g.link? next = if next = id then g.link? id else g.link? next := by
  split
  · rename_i hnext
    rw [hnext]
  · rfl

theorem WellFormed.link?_associate (h : g.WellFormed) (next : EndpointId) :
    (g.associate id gid node).graph.link? next =
      if next = id then
        match g.find gid node with
        | .ok key => if id ∈ g.endpoints then some key else g.link? id
        | .error _ => g.link? id
      else g.link? next := by
  unfold Graph.associate
  cases hfind : g.find gid node with
  | error error => exact link?_kept id next
  | ok key =>
    have hnone : g.attach? id key = none ↔ id ∉ g.endpoints ∨ g.link? id = some key :=
      attach?_eq_none_iff (h.find_eq_ok hfind)
    dsimp only
    cases hattach : g.attach? id key with
    | some done =>
      have hid : id ∈ g.endpoints := by
        by_contra hid
        rw [hnone.mpr (Or.inl hid)] at hattach
        cases hattach
      rw [if_neg (not_not.mpr hid), if_pos hid]
      exact link?_attach? hattach next
    | none =>
      -- The endpoint is unknown, or it belongs to the node already.
      have hsame : (if id ∈ g.endpoints then some key else g.link? id) = g.link? id := by
        split
        · rename_i hid
          exact ((hnone.mp hattach).resolve_left (not_not.mpr hid)).symm
        · rfl
      rw [hsame, ← link?_kept id next]
      split <;> rfl

theorem link?_dissociate (next : EndpointId) : (g.dissociate id gid node).graph.link? next =
    if next = id then
      match g.find gid node with
      | .ok key => if g.link? id = some key then none else g.link? id
      | .error _ => g.link? id
    else g.link? next := by
  unfold dissociate
  cases g.find gid node with
  | error error => exact link?_kept id next
  | ok key =>
    dsimp only
    cases hdetach : g.detach? id key with
    | some done =>
      have hlink : g.link? id = some key := by
        by_contra hlink
        rw [detach?_eq_none_iff.mpr hlink] at hdetach
        cases hdetach
      rw [if_neg (not_not.mpr (mem_endpoints_of_link? hlink)), if_pos hlink]
      exact link?_detach? hdetach next
    | none =>
      rw [if_neg (detach?_eq_none_iff.mp hdetach), ← link?_kept id next]
      split <;> rfl

theorem WellFormed.concerns_associate (h : g.WellFormed) :
    g.Concerns id (.associate id gid node) := by
  refine concerns_of_rewired (rewired_associate id gid node) (pending_associate id gid node) rfl
    ?_ ?_ ((h.told_associate id gid node).map _)
  · simp only [isSome_names_standing_iff]
    exact h.link?_associate id gid node
  · simp only [Graph.perform, Outcome.map, result_associate, Command.verdict,
      isSome_names_standing_iff]
    cases g.find gid node with
    | error error => rfl
    | ok key =>
      dsimp only
      split <;> rfl

theorem concerns_dissociate : g.Concerns id (.dissociate id gid node) := by
  refine concerns_of_rewired (rewired_dissociate id gid node) (pending_dissociate id gid node) rfl
    (link?_dissociate id gid node) ?_ ((g.told_dissociate id gid node).map _)
  simp only [perform, Outcome.map, result_dissociate, Command.verdict, isSome_names_standing_iff]
  cases g.find gid node with
  | error error => rfl
  | ok key =>
    dsimp only
    split <;> rfl

end Associations

theorem WellFormed.concerns (h : g.WellFormed) (hc : c.endpoint? = some id) :
    g.Concerns id c := by
  cases c with
  | addEndpoint other topic type =>
    obtain rfl : other = id := Option.some.inj hc
    exact h.concerns_addEndpoint other topic type
  | removeEndpoint other =>
    obtain rfl : other = id := Option.some.inj hc
    exact concerns_removeEndpoint g other
  | associate other gid node =>
    obtain rfl : other = id := Option.some.inj hc
    exact h.concerns_associate other gid node
  | dissociate other gid node =>
    obtain rfl : other = id := Option.some.inj hc
    exact concerns_dissociate other gid node
  | _ => cases hc

/-! ## Two commands -/

/-- The watcher is told exactly if the standing of the endpoint is another one afterwards. -/
theorem Concerns.notified_iff (hc : g.Concerns id c) (h : g.WellFormed) :
    (g.perform c).notified = true ↔
      g.watched = true ∧ c.revise g (g.standing id) ≠ g.standing id := by
  have hsame : (g.perform c).graph = g ↔ c.revise g (g.standing id) = g.standing id := by
    rw [← hc.standing]
    constructor
    · exact fun heq => congrArg (·.standing id) heq
    · intro heq
      refine h.ext_standing (h.perform c) hc.sameNodes hc.prefs hc.watched fun next => ?_
      by_cases hnext : next = id
      · rw [hnext, heq]
      · exact hc.others next hnext
  exact hc.told.trans (and_congr_right fun _ => not_congr hsame)

/-- What a command does to its endpoint is the same after a command about another endpoint. -/
structure Concerns.Undisturbed (g g' : Graph) (id : EndpointId) (c : Command) : Prop where
  result : (g'.perform c).result = (g.perform c).result
  notified : (g'.perform c).notified = (g.perform c).notified
  standing : (g'.perform c).graph.standing id = (g.perform c).graph.standing id

theorem Concerns.undisturbed (hd : g.Concerns next d) (h : g.WellFormed)
    (hc : c.endpoint? = some id) (hne : id ≠ next) :
    Concerns.Undisturbed g (g.perform d).graph id c := by
  have h' := h.perform d
  have hbefore := h.concerns hc
  have hafter := h'.concerns hc
  have hkept := hd.others id hne
  have hrevise : c.revise (g.perform d).graph ((g.perform d).graph.standing id) =
      c.revise g (g.standing id) := by
    rw [hkept, hd.sameNodes.revise]
  exact {
    result := by rw [hafter.result, hbefore.result, hkept, hd.sameNodes.verdict]
    notified := by
      rw [Bool.eq_iff_iff, hafter.notified_iff h', hbefore.notified_iff h, hd.watched, hrevise,
        hkept]
    standing := by rw [hafter.standing, hbefore.standing, hrevise] }

/-- Two commands, each of which announces, forgets, attaches or detaches an endpoint, may be given
in either order if the endpoints are different. Each of them has the same answer and tells the
watcher in both orders or in none, and the graph in the end is the same. -/
theorem perform_comm (hg : g.Reachable) (hc : c.endpoint? = some id) (hd : d.endpoint? = some next)
    (hne : id ≠ next) :
    let cd := (g.perform c).graph.perform d
    let dc := (g.perform d).graph.perform c
    dc.result = (g.perform c).result ∧ cd.result = (g.perform d).result ∧
      dc.notified = (g.perform c).notified ∧ cd.notified = (g.perform d).notified ∧
        cd.graph = dc.graph := by
  intro cd dc
  have h := hg.wellFormed
  have hgc := h.concerns hc
  have hgd := h.concerns hd
  have hcd := (h.perform c).concerns hd
  have hdc := (h.perform d).concerns hc
  have hsame : Concerns.Undisturbed g (g.perform d).graph id c := hgd.undisturbed h hc hne
  have hsame' : Concerns.Undisturbed g (g.perform c).graph next d := hgc.undisturbed h hd hne.symm
  refine ⟨hsame.result, hsame'.result, hsame.notified, hsame'.notified, ?_⟩
  refine ((h.perform d).perform c).ext_standing ((h.perform c).perform d) ?_ ?_ ?_ fun other => ?_
  · exact (hgd.sameNodes.trans hdc.sameNodes).symm.trans (hgc.sameNodes.trans hcd.sameNodes)
  · rw [hcd.prefs, hgc.prefs, hdc.prefs, hgd.prefs]
  · rw [hcd.watched, hgc.watched, hdc.watched, hgd.watched]
  · by_cases hid : other = id
    · rw [hid, hcd.others id hne, hsame.standing]
    · by_cases hnext : other = next
      · rw [hnext, hsame'.standing, hdc.others next hne.symm]
      · rw [hcd.others other hnext, hgc.others other hid, hdc.others other hid,
          hgd.others other hnext]

/-- One reader leaves the node that waits for the writer with the same identifier while this
writer is announced. -/
theorem perform_comm_shared :
    let g := (emptyWith .recycle .standard).run
      [.addEndpoint ⟨.reader, .zero⟩ "t" "T",
        .reconcile ⟨.zero, [⟨⟨"/", "a"⟩, [.zero], [.zero]⟩, ⟨⟨"/", "b"⟩, [], []⟩]⟩]
    let c : Command := .associate ⟨.reader, .zero⟩ .zero ⟨"/", "b"⟩
    let d : Command := .addEndpoint ⟨.writer, .zero⟩ "t" "T"
    let cd := (g.perform c).graph.perform d
    let dc := (g.perform d).graph.perform c
    cd.graph = dc.graph ∧ cd.graph.home? ⟨.reader, .zero⟩ = some ⟨.zero, ⟨"/", "b"⟩⟩ ∧
      cd.graph.home? ⟨.writer, .zero⟩ = some ⟨.zero, ⟨"/", "a"⟩⟩ := by
  intro g c d cd dc
  have hg : g.Reachable := ⟨_, _, _, rfl⟩
  have hc : c.endpoint? = some ⟨.reader, .zero⟩ := rfl
  have hd : d.endpoint? = some ⟨.writer, .zero⟩ := rfl
  obtain ⟨-, -, -, -, hsame⟩ := perform_comm hg hc hd (by decide)
  refine ⟨hsame, ?_, ?_⟩ <;>
  · simp only [g, c, d, cd]
    decide +kernel

end Graph

end DiscoveryGraph
