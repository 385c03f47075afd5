import DiscoveryGraph.Proofs.Discovery
import DiscoveryGraph.Proofs.History
import DiscoveryGraph.Proofs.Refusals

/-!
# The catalog of endpoints

Which endpoints are known, and their topics and types, follow from the announcements and their
withdrawals alone. Participants and nodes that come and go, associations and merges all write into
the records of endpoints, but none of them lets an endpoint appear, vanish or change its names.

* `topicAndType?_run`: what a run makes of the topic and the type of an endpoint.
* `transcript_filter`: the results of announcements and withdrawals do not depend on the commands
  in between.
* `Catalogued.endpointCount_eq`: counts are counts of the announcements that stand.
* `catalog_run`: a run and what is left of it without all other commands have the same catalog.
-/

namespace DiscoveryGraph

open DiscoveryGraph.Graph

namespace Command

/-- The command announces an endpoint or withdraws it. -/
def isDiscovery : Command → Bool
  | .addEndpoint .. | .removeEndpoint .. => true
  | _ => false

/-- What a command that is carried out makes of the announcements that stand. -/
def record (standing : List Announcement) : Command → List Announcement
  | .addEndpoint id topic type => standing ++ [⟨id, topic, type⟩]
  | .removeEndpoint gone => standing.filter (·.id ≠ gone)
  | _ => standing

end Command

/-- The announcements among some commands that none of the later commands withdraws. -/
def Announcement.standing : List Command → List Announcement
  | [] => []
  | .addEndpoint id topic type :: later =>
    if .removeEndpoint id ∈ later then standing later else ⟨id, topic, type⟩ :: standing later
  | _ :: later => standing later

namespace Graph

/-- The commands of a run in order, each with its result. -/
def transcript (g : Graph) : List Command → List (Command × Except GraphError Answer)
  | [] => []
  | command :: commands =>
    let outcome := g.perform command
    (command, outcome.result) :: outcome.graph.transcript commands

/-- The endpoints that are known are those of the announcements, with their topics and types. -/
structure Catalogued (g : Graph) (announcements : List Announcement) : Prop where
  mem_iff : ∀ announcement, announcement ∈ announcements ↔
    g.topicAndType? announcement.id = some (announcement.topic, announcement.type)
  nodup : (announcements.map (·.id)).Nodup

end Graph

/-! ## The announcements that stand -/

namespace Announcement

theorem record_cons (announcement : Announcement) (standing : List Announcement)
    (command : Command) : command.record (announcement :: standing) =
      if command = .removeEndpoint announcement.id then command.record standing
      else announcement :: command.record standing := by
  cases command with
  | removeEndpoint gone =>
    by_cases hgone : gone = announcement.id
    · simp [Command.record, hgone]
    · simp [Command.record, hgone, Ne.symm hgone]
  | _ => rfl

theorem standing_concat (done : List Command) (command : Command) :
    standing (done ++ [command]) = command.record (standing done) := by
  induction done with
  | nil => cases command <;> rfl
  | cons earlier done ih =>
    cases earlier with
    | addEndpoint id topic type =>
      simp only [List.cons_append, standing, ih, List.mem_append, List.mem_singleton]
      by_cases hwithdrawn : .removeEndpoint id ∈ done
      · simp only [hwithdrawn, true_or, if_true]
      · simp only [hwithdrawn, false_or, if_false, record_cons, eq_comm]
    | _ => exact ih

theorem standing_eq_foldl (commands : List Command) :
    standing commands = commands.foldl Command.record [] := by
  induction commands using List.reverseRecOn with
  | nil => rfl
  | append_singleton done command ih => rw [standing_concat, ih, List.foldl_append]; rfl

end Announcement

namespace Graph

variable {g g' : Graph} {id : EndpointId} {command : Command} {commands : List Command}
  {standing : List Announcement}

/-! ## One command -/

theorem describe_of_isDiscovery_eq_false (hother : command.isDiscovery = false)
    (before : Option (String × String)) : command.describe id before = before := by
  cases command with
  | addEndpoint | removeEndpoint => cases hother
  | _ => rfl

/-- Whether an endpoint is announced or withdrawn depends on which endpoints are known. -/
theorem result_perform_congr (hnames : ∀ id, g'.topicAndType? id = g.topicAndType? id)
    (hdiscovery : command.isDiscovery = true) :
    (g'.perform command).result = (g.perform command).result := by
  have hknown : ∀ id, id ∈ g'.endpoints ↔ id ∈ g.endpoints := by
    intro id
    rw [mem_endpoints_iff, mem_endpoints_iff, hnames]
  cases command with
  | addEndpoint id topic type => simp only [perform, Outcome.map, result_addEndpoint, hknown]
  | removeEndpoint id => simp only [perform, Outcome.map, result_removeEndpoint, hknown]
  | _ => cases hdiscovery

/-! ## A run without the other commands -/

theorem topicAndType?_run (h : g.WellFormed) (commands : List Command) (id : EndpointId) :
    (g.run commands).topicAndType? id =
      commands.foldl (Command.describe id) (g.topicAndType? id) := by
  induction commands generalizing g with
  | nil => rfl
  | cons command commands ih =>
    rw [List.foldl_cons, ← topicAndType?_perform h]
    exact ih (h.perform command)

/-- Commands that are about no endpoint may be left out. -/
theorem topicAndType?_run_filter (h : g.WellFormed) (commands : List Command) (id : EndpointId) :
    (g.run (commands.filter (·.isDiscovery))).topicAndType? id =
      (g.run commands).topicAndType? id := by
  rw [topicAndType?_run h, topicAndType?_run h, List.foldl_filter]
  refine List.foldl_ext _ _ _ fun before command _ => ?_
  by_cases hdiscovery : command.isDiscovery
  · rw [if_pos hdiscovery]
  · rw [if_neg hdiscovery,
      describe_of_isDiscovery_eq_false (Bool.eq_false_of_not_eq_true hdiscovery)]

/-- Announcements and withdrawals have the same results, whichever other commands are left out. -/
theorem transcript_filter (h : g.WellFormed) (h' : g'.WellFormed)
    (hnames : ∀ id, g'.topicAndType? id = g.topicAndType? id) (commands : List Command) :
    g'.transcript (commands.filter (·.isDiscovery)) =
      (g.transcript commands).filter (·.1.isDiscovery) := by
  induction commands generalizing g g' with
  | nil => rfl
  | cons command commands ih =>
    have hwf := h.perform command
    by_cases hdiscovery : command.isDiscovery
    · have hnext : ∀ id, (g'.perform command).graph.topicAndType? id =
          (g.perform command).graph.topicAndType? id := by
        intro id
        rw [topicAndType?_perform h', topicAndType?_perform h, hnames]
      simp only [List.filter_cons, transcript, hdiscovery, if_true,
        result_perform_congr hnames hdiscovery, ih hwf (h'.perform command) hnext]
    · have hother := Bool.eq_false_of_not_eq_true hdiscovery
      have hnext : ∀ id, g'.topicAndType? id = (g.perform command).graph.topicAndType? id := by
        intro id
        rw [topicAndType?_perform h, hnames, describe_of_isDiscovery_eq_false hother]
      simp only [List.filter_cons, transcript, hother, Bool.false_eq_true, if_false,
        ih hwf h' hnext]

/-! ## What is known is what stands -/

namespace Catalogued

variable (hs : Catalogued g standing)
include hs

theorem perform (h : g.WellFormed) (hdone : (g.perform command).result.isOk) :
    Catalogued (g.perform command).graph (command.record standing) := by
  have hnames := topicAndType?_perform h command
  cases command with
  | addEndpoint id topic type =>
    have hnew : g.topicAndType? id = none := by
      rw [Graph.perform, isOk_result_map, result_addEndpoint] at hdone
      by_contra hknown
      rw [if_pos (mem_endpoints_iff.mpr (Option.isSome_iff_ne_none.mpr hknown))] at hdone
      cases hdone
    have hfresh : ∀ entry ∈ standing, entry.id ≠ id := by
      rintro entry hentry rfl
      rw [(hs.mem_iff entry).mp hentry] at hnew
      cases hnew
    refine ⟨fun entry => ?_, ?_⟩
    · obtain ⟨next, topic', type'⟩ := entry
      rw [hnames, Command.record, Command.describe, List.mem_append, List.mem_singleton,
        Announcement.mk.injEq]
      by_cases hnext : next = id
      · subst hnext
        have hnot : ⟨next, topic', type'⟩ ∉ standing := fun hentry => hfresh _ hentry rfl
        simp [hnew, hnot, eq_comm]
      · simp [hnext, hs.mem_iff]
    · rw [Command.record, List.map_append, List.nodup_append]
      refine ⟨hs.nodup, List.nodup_singleton _, ?_⟩
      rintro _ hmem _ hlast rfl
      obtain ⟨entry, hentry, heq⟩ := List.mem_map.mp hmem
      exact hfresh entry hentry (heq.trans (List.mem_singleton.mp hlast))
  | removeEndpoint gone =>
    refine ⟨fun entry => ?_, hs.nodup.sublist (List.filter_sublist.map _)⟩
    rw [hnames, Command.record, Command.describe, List.mem_filter, hs.mem_iff]
    by_cases hgone : entry.id = gone <;> simp [hgone]
  | _ => exact ⟨fun entry => (hs.mem_iff entry).trans (by rw [hnames]; rfl), hs.nodup⟩

theorem run (h : g.WellFormed) (commands : List Command) :
    Catalogued (g.run commands) ((g.carriedOut commands).foldl Command.record standing) := by
  induction commands generalizing g standing with
  | nil => exact hs
  | cons command commands ih =>
    unfold carriedOut
    dsimp only
    split
    · rename_i hdone
      exact ih (hs.perform h hdone) (h.perform command)
    · rename_i hrefused
      refine ih (g := (g.perform command).graph) ?_ (h.perform command)
      rwa [graph_perform_of_not_isOk hrefused]

theorem endpointCount_eq (kind : EndpointKind) (topic : String) : g.endpointCount kind topic =
    (standing.filter fun entry => entry.id.kind = kind ∧ entry.topic = topic).length := by
  have hnodup : ((standing.filter fun entry =>
      entry.id.kind = kind ∧ entry.topic = topic).map (·.id)).Nodup :=
    hs.nodup.sublist (List.filter_sublist.map _)
  have hperm : ((g.endpointsOn kind topic).map (·.1)).Perm
      ((standing.filter fun entry => entry.id.kind = kind ∧ entry.topic = topic).map (·.id)) := by
    refine (List.perm_ext_iff_of_nodup (g.nodup_endpointsOn kind topic) hnodup).mpr fun id => ?_
    simp only [List.mem_map, List.mem_filter, mem_endpointsOn_iff, decide_eq_true_eq, hs.mem_iff]
    constructor
    · rintro ⟨⟨id, endpoint⟩, ⟨hendpoint, rfl, rfl⟩, rfl⟩
      have hnames : g.topicAndType? id = some (endpoint.topic, endpoint.type) :=
        Option.map_eq_some_iff.mpr ⟨endpoint, hendpoint, rfl⟩
      exact ⟨⟨id, endpoint.topic, endpoint.type⟩, ⟨hnames, rfl, rfl⟩, rfl⟩
    · rintro ⟨⟨id, topic, type⟩, ⟨hnames, rfl, rfl⟩, rfl⟩
      obtain ⟨endpoint, hendpoint, heq⟩ := Option.map_eq_some_iff.mp hnames
      exact ⟨(id, endpoint), ⟨hendpoint, rfl, congrArg Prod.fst heq⟩, rfl⟩
  rw [endpointCount, ← List.length_map (·.1), hperm.length_eq, List.length_map]

end Catalogued

theorem catalogued_run (policy : SlotPolicy) (prefs : Prefs) (commands : List Command) :
    Catalogued ((emptyWith policy prefs).run commands)
      (Announcement.standing ((emptyWith policy prefs).carriedOut commands)) := by
  rw [Announcement.standing_eq_foldl]
  have hempty : Catalogued (emptyWith policy prefs) [] :=
    ⟨fun entry => by simp [topicAndType?, emptyWith], List.nodup_nil⟩
  exact hempty.run (wellFormed_emptyWith policy prefs) commands

/-- Every run from a graph without content, compared with what is left of it without all commands
but announcements and withdrawals: these have the same results, and lead to the same counts, the
same topics with their types, and the same topic and type of every endpoint. Each count is the
number of announcements of that kind and topic that were carried out and not withdrawn since. -/
theorem catalog_run (policy : SlotPolicy) (prefs : Prefs) (commands : List Command) :
    let fresh := emptyWith policy prefs
    let discovery := commands.filter (·.isDiscovery)
    let standing := Announcement.standing (fresh.carriedOut commands)
    fresh.transcript discovery = (fresh.transcript commands).filter (·.1.isDiscovery) ∧
    (∀ kind topic, (fresh.run discovery).endpointCount kind topic =
      (fresh.run commands).endpointCount kind topic) ∧
    (∀ demangleTopic demangleType,
      (fresh.run discovery).namesAndTypes demangleTopic demangleType =
        (fresh.run commands).namesAndTypes demangleTopic demangleType) ∧
    (∀ id, ((fresh.run discovery).endpoint? id).map (fun endpoint =>
        ((endpoint.facts id).id, (endpoint.facts id).topic, (endpoint.facts id).type)) =
      ((fresh.run commands).endpoint? id).map fun endpoint =>
        ((endpoint.facts id).id, (endpoint.facts id).topic, (endpoint.facts id).type)) ∧
    (standing.map (·.id)).Nodup ∧
    ∀ kind topic, (fresh.run commands).endpointCount kind topic =
      (standing.filter fun entry => entry.id.kind = kind ∧ entry.topic = topic).length := by
  intro fresh discovery standing
  have h : fresh.WellFormed := wellFormed_emptyWith policy prefs
  have hnames := topicAndType?_run_filter h commands
  have hs : Catalogued (fresh.run commands) standing := catalogued_run policy prefs commands
  refine ⟨transcript_filter h h (fun _ => rfl) commands, ?_, ?_, ?_, hs.nodup, hs.endpointCount_eq⟩
  · intro kind topic
    have hs' : Catalogued (fresh.run discovery) standing :=
      ⟨fun entry => by rw [hnames, hs.mem_iff], hs.nodup⟩
    rw [hs'.endpointCount_eq, hs.endpointCount_eq]
  · intro demangleTopic demangleType
    refine NamesAndTypes.ofEndpoints_congr fun topic type => ?_
    simp only [exists_mem_endpoints_iff, discovery, hnames]
  · intro id
    have hid := congrArg (Option.map fun names => (id, names)) (hnames id)
    rw [topicAndType?, topicAndType?, Option.map_map, Option.map_map] at hid
    exact hid

end Graph

end DiscoveryGraph
