import DiscoveryGraph.Proofs.Requests

/-!
# Waiting associations and the history of a graph

What is known of an endpoint follows from the commands of a run: `Command.describe` states what one
of them does to the topic and the type, and only announcements and withdrawals do anything.

Which node waits for an endpoint follows from the commands that were carried out. A merge whose
snapshot lists the endpoint decides it anew, a merge for the participant that leaves the endpoint
out ends it, and so do the removal of the node and of the participant. `Command.redirect` states
what one command does to the place where an endpoint waits.

* `topicAndType?_perform`: what one command makes of the topic and the type of an endpoint.
* `awaiting?_run`: where an endpoint waits after a run is what the commands of the run that were
  carried out make of it, one after the other.
* `foldl_redirect_eq_some_iff`: what they make of it is told by the last listing in the history.
* `home?_addEndpoint_iff_due`: where an endpoint belongs right after its announcement.
-/

namespace DiscoveryGraph

/-- What a command that is carried out makes of the place where an endpoint waits. -/
def Command.redirect (id : EndpointId) (before : Option NodeAddress) :
    Command → Option NodeAddress
  | .reconcile snapshot =>
    match snapshot.owner? id with
    | some name => some ⟨snapshot.gid, name⟩
    | none => before.filter (·.participant ≠ snapshot.gid)
  | .removeNode participant node => before.filter (· ≠ ⟨participant, node⟩)
  | .removeParticipant gid => before.filter (·.participant ≠ gid)
  | .removeEndpoint gone => if gone = id then none else before
  | _ => before

/-- What a command makes of the topic and the type that are known of an endpoint. An announcement
of an endpoint that is known does not count. -/
def Command.describe (id : EndpointId) (before : Option (String × String)) :
    Command → Option (String × String)
  | .addEndpoint announced topic type =>
    if id = announced then some (before.getD (topic, type)) else before
  | .removeEndpoint gone => if id = gone then none else before
  | _ => before

namespace Graph

/-- The commands of a run that are carried out. -/
def carriedOut (g : Graph) : List Command → List Command
  | [] => []
  | command :: commands =>
    let outcome := g.perform command
    if outcome.result.isOk then command :: outcome.graph.carriedOut commands
    else outcome.graph.carriedOut commands

variable {g : Graph} {id : EndpointId} {snapshot : Snapshot} {command : Command}
  {commands : List Command}

/-! ## One command -/

theorem prefs_perform (h : g.WellFormed) (command : Command) :
    (g.perform command).graph.prefs = g.prefs := by
  cases command with
  | addEndpoint id topic type =>
    by_cases hid : id ∈ g.endpoints
    · exact congrArg Graph.prefs (graph_addEndpoint_of_mem hid)
    · exact (announced_addEndpoint h hid topic type).prefs
  | removeEndpoint id => exact (forgotten_removeEndpoint g id).prefs
  | addParticipant gid enclave => exact (keeps_addParticipant gid enclave).prefs
  | removeParticipant gid => exact (h.vacated_removeParticipant gid).prefs
  | addNode gid node => exact (keeps_addNode gid node).prefs
  | removeNode gid node => exact (h.keeps_removeNode gid node).prefs
  | associate id gid node => exact (rewired_associate id gid node).prefs
  | dissociate id gid node => exact (rewired_dissociate id gid node).prefs
  | reconcile snapshot => exact (keeps_reconcile h snapshot).prefs
  | watch => rfl
  | unwatch => rfl

theorem topicAndType?_perform (h : g.WellFormed) (command : Command) (id : EndpointId) :
    (g.perform command).graph.topicAndType? id = command.describe id (g.topicAndType? id) := by
  cases command with
  | addEndpoint announced topic type =>
    by_cases hknown : announced ∈ g.endpoints
    · obtain ⟨names, hnames⟩ := Option.isSome_iff_exists.mp (mem_endpoints_iff.mp hknown)
      rw [perform, Outcome.map, graph_addEndpoint_of_mem hknown, Command.describe]
      split
      · rename_i heq
        rw [heq, hnames, Option.getD_some]
      · rfl
    · have hnames : g.topicAndType? announced = none := by
        rwa [mem_endpoints_iff, Option.not_isSome_iff_eq_none] at hknown
      refine ((announced_addEndpoint h hknown topic type).topicAndType? id).trans ?_
      rw [Command.describe]
      split
      · rename_i heq
        rw [heq, hnames, Option.getD_none]
      · rfl
  | removeEndpoint gone => exact (forgotten_removeEndpoint g gone).topicAndType? id
  | addParticipant gid enclave => exact (keeps_addParticipant gid enclave).topicAndType? id
  | removeParticipant gid => exact (h.vacated_removeParticipant gid).topicAndType? id
  | addNode gid node => exact (keeps_addNode gid node).topicAndType? id
  | removeNode gid node => exact (h.keeps_removeNode gid node).topicAndType? id
  | associate other gid node => exact (rewired_associate other gid node).topicAndType? id
  | dissociate other gid node => exact (rewired_dissociate other gid node).topicAndType? id
  | reconcile snapshot => exact (keeps_reconcile h snapshot).topicAndType? id
  | watch => rfl
  | unwatch => rfl

/-- Only forgetting an endpoint makes it unknown. -/
theorem mem_endpoints_perform (h : g.WellFormed) (hid : id ∈ g.endpoints)
    (hcommand : command ≠ .removeEndpoint id) : id ∈ (g.perform command).graph.endpoints := by
  rw [mem_endpoints_iff] at hid ⊢
  rw [topicAndType?_perform h]
  cases command with
  | addEndpoint announced topic type =>
    rw [Command.describe]
    split
    · rfl
    · exact hid
  | removeEndpoint gone =>
    have hne : id ≠ gone := by
      rintro rfl
      exact hcommand rfl
    rwa [Command.describe, if_neg hne]
  | _ => exact hid

theorem WellFormed.awaiting?_reconcile (h : g.WellFormed) (hwait : g.MayWait id)
    (hnodup : snapshot.names.Nodup) :
    (g.reconcile snapshot).graph.awaiting? id =
      (Command.reconcile snapshot).redirect id (g.awaiting? id) := by
  rw [reconcile_of_nodup hnodup, (Merge.converged_run h hnodup).awaiting?]
  cases howner : snapshot.owner? id <;> simp [Command.redirect, howner, hwait]

theorem isOk_result_map {α β : Type} (f : α → β) (outcome : Outcome α) :
    (outcome.map f).result.isOk = outcome.result.isOk := by
  cases h : outcome.result <;> simp [Outcome.map, h, Except.map, Except.isOk, Except.toBool]

/-- A command that is not carried out leaves the graph as it is. -/
theorem graph_perform_of_not_isOk (hrefused : ¬ (g.perform command).result.isOk) :
    (g.perform command).graph = g := by
  cases hresult : (g.perform command).result with
  | error error => exact g.allOrNothing_perform command error hresult
  | ok answer => simp [hresult, Except.isOk, Except.toBool] at hrefused

/-- A command that is carried out redirects what waits for an endpoint that is not known, neither
before nor afterwards. -/
theorem awaiting?_perform (h : g.WellFormed) (hwait : g.MayWait id)
    (hdone : (g.perform command).result.isOk)
    (hend : id ∉ (g.perform command).graph.endpoints) :
    (g.perform command).graph.awaiting? id = command.redirect id (g.awaiting? id) := by
  cases command with
  | addEndpoint other topic type =>
    by_cases hother : other ∈ g.endpoints
    · exact congrArg (awaiting? · id) (graph_addEndpoint_of_mem hother)
    · have ha := announced_addEndpoint h hother topic type
      have hne : id ≠ other := fun heq => hend ((ha.mem_endpoints id).mpr (Or.inl heq))
      exact (ha.awaiting? id).trans (if_neg hne)
  | removeEndpoint other =>
    have hne : other ≠ id := by
      rintro rfl
      rw [perform, isOk_result_map, removeEndpoint,
        Std.ExtTreeMap.getElem?_eq_none hwait.1] at hdone
      cases hdone
    exact ((forgotten_removeEndpoint g other).awaiting? id).trans (if_neg hne).symm
  | addParticipant gid enclave => exact awaiting?_addParticipant gid enclave
  | removeParticipant gid => exact h.awaiting?_removeParticipant gid
  | addNode gid node => exact h.awaiting?_addNode gid node
  | removeNode gid node => exact h.awaiting?_removeNode gid node
  | associate other gid node =>
    have haddress := funext (rewired_associate (g := g) other gid node).address?
    simp only [perform, Outcome.map, awaiting?, pending_associate, haddress, Command.redirect]
  | dissociate other gid node =>
    have haddress := funext (rewired_dissociate (g := g) other gid node).address?
    simp only [perform, Outcome.map, awaiting?, pending_dissociate, haddress, Command.redirect]
  | reconcile snapshot =>
    refine h.awaiting?_reconcile hwait ?_
    rw [perform, isOk_result_map] at hdone
    cases hresult : (g.reconcile snapshot).result with
    | error error => simp [hresult, Except.isOk, Except.toBool] at hdone
    | ok summary => exact (reconcile_eq_ok_iff.mp hresult).1
  | watch => rfl
  | unwatch => rfl

/-! ## A whole run -/

/-- Where an endpoint waits that is not known after a run. What had become of it before it was
forgotten last does not matter. -/
theorem awaiting?_run (h : g.WellFormed) (hon : g.prefs.reconcile.deferUnknownEndpoints = true)
    {before : Option NodeAddress} (hstart : id ∉ g.endpoints → g.awaiting? id = before)
    (hend : id ∉ (g.run commands).endpoints) :
    (g.run commands).awaiting? id =
      (g.carriedOut commands).foldl (Command.redirect id) before := by
  induction commands generalizing g before with
  | nil => exact hstart hend
  | cons command commands ih =>
    have hwf := h.perform command
    have hallowed : (g.perform command).graph.prefs.reconcile.deferUnknownEndpoints = true := by
      rw [prefs_perform h]
      exact hon
    unfold carriedOut
    dsimp only
    split
    · rename_i hdone
      refine ih hwf hallowed ?_ hend
      intro hunknown
      by_cases hid : id ∈ g.endpoints
      · -- The endpoint has just been forgotten, so that nothing waits for it.
        have hcommand : command = .removeEndpoint id := by
          by_contra hne
          exact hunknown (mem_endpoints_perform h hid hne)
        subst hcommand
        exact ((forgotten_removeEndpoint g id).awaiting? id).trans
          ((h.awaiting?_of_mem hid).trans (if_pos rfl).symm)
      · rw [awaiting?_perform h ⟨hid, hon⟩ hdone hunknown, hstart hid]
    · rename_i hrefused
      refine ih hwf hallowed ?_ hend
      rw [graph_perform_of_not_isOk hrefused]
      exact hstart

end Graph

/-! ## The last listing -/

section LastListing

variable {id : EndpointId} {address : NodeAddress} {before : Option NodeAddress}
  {command : Command} {done since : List Command} {snapshot : Snapshot}

/-- The command, when it is carried out, ends that the endpoint waits at the address. -/
def Command.Dismisses (id : EndpointId) (address : NodeAddress) : Command → Prop
  | .reconcile snapshot => snapshot.Lists id ∨ address.participant = snapshot.gid
  | .removeNode participant node => address = ⟨participant, node⟩
  | .removeParticipant gid => address.participant = gid
  | .removeEndpoint gone => gone = id
  | _ => False

/-- An endpoint waits at an address either because the command has directed it there, or because
it did so before and the command did not end it. -/
theorem Command.redirect_eq_some_iff :
    command.redirect id before = some address ↔
      (∃ snapshot, command = .reconcile snapshot ∧ snapshot.gid = address.participant ∧
        snapshot.owner? id = some address.name) ∨
      (before = some address ∧ ¬ command.Dismisses id address) := by
  cases command with
  | reconcile snapshot =>
    simp only [redirect, Dismisses, ← Snapshot.isSome_owner?_iff, Command.reconcile.injEq,
      exists_eq_left']
    cases howner : snapshot.owner? id with
    | none => simp [Option.filter_eq_some_iff]
    | some name => simp [NodeAddress.ext_iff]
  | removeNode participant node => simp [redirect, Dismisses, Option.filter_eq_some_iff]
  | removeParticipant gid => simp [redirect, Dismisses, Option.filter_eq_some_iff]
  | removeEndpoint gone => by_cases hgone : gone = id <;> simp [redirect, Dismisses, hgone]
  | addEndpoint | addParticipant | addNode | associate | dissociate | watch | unwatch =>
    simp [redirect, Dismisses]

/-- An endpoint waits at an address after some commands exactly if one of them was a merge that
directed it there, and none of those since has ended it. -/
theorem foldl_redirect_eq_some_iff :
    done.foldl (Command.redirect id) none = some address ↔
      ∃ earlier snapshot since, done = earlier ++ .reconcile snapshot :: since ∧
        snapshot.gid = address.participant ∧ snapshot.owner? id = some address.name ∧
        ∀ command ∈ since, ¬ command.Dismisses id address := by
  induction done using List.reverseRecOn with
  | nil => simp
  | append_singleton done command ih =>
    rw [List.foldl_append, List.foldl_cons, List.foldl_nil, Command.redirect_eq_some_iff, ih]
    constructor
    · rintro (⟨snapshot, rfl, hgid, howner⟩ | ⟨hwaits, hlast⟩)
      · exact ⟨done, snapshot, [], rfl, hgid, howner, by simp⟩
      · obtain ⟨earlier, snapshot, since, rfl, hgid, howner, hkept⟩ := hwaits
        refine ⟨earlier, snapshot, since ++ [command], by simp, hgid, howner, ?_⟩
        simpa [or_imp, forall_and] using ⟨hkept, hlast⟩
    · rintro ⟨earlier, snapshot, since, hdone, hgid, howner, hkept⟩
      cases since using List.reverseRecOn with
      | nil =>
        obtain ⟨-, hlast⟩ := List.append_inj' hdone rfl
        exact Or.inl ⟨snapshot, by simpa using hlast, hgid, howner⟩
      | append_singleton since last _ =>
        rw [← List.cons_append, ← List.append_assoc] at hdone
        obtain ⟨hfront, hlast⟩ := List.append_inj' hdone rfl
        cases hlast
        refine Or.inr ⟨⟨earlier, snapshot, since, hfront, hgid, howner, ?_⟩, ?_⟩
        · exact fun other hother => hkept other (List.mem_append_left _ hother)
        · exact hkept command (by simp)

/-- `snapshot` is the last merged snapshot that lists the endpoint, merged since the endpoint was
forgotten last, and `since` are the commands carried out afterwards. -/
def LastListing (id : EndpointId) (done : List Command) (snapshot : Snapshot)
    (since : List Command) : Prop :=
  (∃ earlier, done = earlier ++ .reconcile snapshot :: since) ∧ snapshot.Lists id ∧
    .removeEndpoint id ∉ since ∧ ∀ later, .reconcile later ∈ since → ¬ later.Lists id

/-- The last listing of the endpoint is first at the node with this address, and afterwards no
snapshot of its participant was merged, and neither the node nor its participant was removed. -/
def Due (id : EndpointId) (done : List Command) (address : NodeAddress) : Prop :=
  ∃ snapshot since, LastListing id done snapshot since ∧
    snapshot.gid = address.participant ∧ snapshot.owner? id = some address.name ∧
    (∀ later, .reconcile later ∈ since → later.gid ≠ address.participant) ∧
    .removeNode address.participant address.name ∉ since ∧
    .removeParticipant address.participant ∉ since

theorem foldl_redirect_eq_some_iff_due :
    done.foldl (Command.redirect id) none = some address ↔ Due id done address := by
  rw [foldl_redirect_eq_some_iff]
  constructor
  · rintro ⟨earlier, snapshot, since, hdone, hgid, howner, hkept⟩
    refine ⟨snapshot, since, ⟨⟨earlier, hdone⟩, ?_, ?_, ?_⟩, hgid, howner, ?_, ?_, ?_⟩
    · rw [← Snapshot.isSome_owner?_iff, howner]
      rfl
    · exact fun hmem => hkept _ hmem rfl
    · exact fun later hmem hlists => hkept _ hmem (Or.inl hlists)
    · exact fun later hmem hlater => hkept _ hmem (Or.inr hlater.symm)
    · exact fun hmem => hkept _ hmem rfl
    · exact fun hmem => hkept _ hmem rfl
  · rintro ⟨snapshot, since, ⟨⟨earlier, hdone⟩, -, hforgotten, hlisted⟩, hgid, howner, hmerged,
      hnode, hparticipant⟩
    refine ⟨earlier, snapshot, since, hdone, hgid, howner, ?_⟩
    rintro command hmem hends
    cases command with
    | reconcile later =>
      rcases hends with hlists | hlater
      · exact hlisted later hmem hlists
      · exact hmerged later hmem hlater.symm
    | removeNode participant node =>
      cases hends
      exact hnode hmem
    | removeParticipant gid =>
      cases hends
      exact hparticipant hmem
    | removeEndpoint gone =>
      cases hends
      exact hforgotten hmem
    | addEndpoint | addParticipant | addNode | associate | dissociate | watch | unwatch =>
      exact hends

end LastListing

namespace Graph

variable {id : EndpointId}

/-- Where associations may wait, an endpoint that is announced belongs to a node exactly if its
last listing, since it was forgotten last, is first at this node and still stands; otherwise it
belongs to no node. -/
theorem home?_addEndpoint_iff_due (policy : SlotPolicy) (prefs : Prefs) (commands : List Command)
    (id : EndpointId) (topic type : String)
    (hon : prefs.reconcile.deferUnknownEndpoints = true)
    (haccepted : (((emptyWith policy prefs).run commands).addEndpoint id topic type).result =
      .ok ()) :
    let done := (emptyWith policy prefs).carriedOut commands
    let after := (((emptyWith policy prefs).run commands).addEndpoint id topic type).graph
    (∀ address, after.home? id = some address ↔ Due id done address) ∧
      ((¬ ∃ address, Due id done address) →
        ∃ endpoint, after.endpoint? id = some endpoint ∧ endpoint.isAssociated = false) := by
  intro done after
  have hempty := wellFormed_emptyWith policy prefs
  have hunknown := result_addEndpoint_eq_ok_iff.mp haccepted
  have ha : Announced id topic type _ after :=
    announced_addEndpoint (hempty.run commands) hunknown topic type
  have hwaits : ((emptyWith policy prefs).run commands).awaiting? id =
      done.foldl (Command.redirect id) none :=
    awaiting?_run hempty hon (fun _ => by simp [awaiting?, emptyWith]) hunknown
  have hhome : ∀ address, after.home? id = some address ↔ Due id done address := by
    intro address
    rw [ha.home?, if_pos rfl, hwaits, foldl_redirect_eq_some_iff_due]
  refine ⟨hhome, fun hnone => ?_⟩
  have hknown : id ∈ after.endpoints := (ha.mem_endpoints id).mpr (Or.inl rfl)
  obtain ⟨endpoint, hendpoint⟩ :=
    Option.isSome_iff_exists.mp (Std.ExtTreeMap.mem_iff_isSome_getElem?.mp hknown)
  refine ⟨endpoint, hendpoint, ?_⟩
  cases hlink : endpoint.link with
  | none => simp [Endpoint.isAssociated, hlink]
  | some key =>
    -- A link leads to a node, which would be the home of the endpoint.
    have hkey : after.link? id = some key := by simp [link?, hendpoint, hlink]
    obtain ⟨address, -, hplace⟩ := ha.wellFormed.link?_eq_some_iff.mp hkey
    exact absurd ⟨address, (hhome address).mp hplace⟩ hnone

/-- A second participant has taken over the waiting endpoint before the node of the first one was
replaced by another of the same name. -/
theorem home?_addEndpoint_iff_due_taken :
    let id : EndpointId := ⟨.reader, .zero⟩
    let other : Gid := ⟨.replicate gidWidth 1⟩
    let commands : List Command :=
      [.reconcile ⟨.zero, [⟨⟨"/", "a"⟩, [.zero], []⟩]⟩,
       .reconcile ⟨other, [⟨⟨"/", "b"⟩, [.zero], []⟩]⟩,
       .removeNode .zero ⟨"/", "a"⟩, .addNode .zero ⟨"/", "a"⟩]
    let g := (emptyWith .recycle .standard).run commands
    (g.addEndpoint id "rt/chatter" "T").result = .ok () ∧
      (g.addEndpoint id "rt/chatter" "T").graph.home? id = some ⟨other, ⟨"/", "b"⟩⟩ ∧
      Due id ((emptyWith .recycle .standard).carriedOut commands) ⟨other, ⟨"/", "b"⟩⟩ := by
  intro id other commands g
  have haccepted : (g.addEndpoint id "rt/chatter" "T").result = .ok () := by
    rw [result_addEndpoint_eq_ok_iff]
    simp only [g, commands, id, other]
    decide +kernel
  have hhome : (g.addEndpoint id "rt/chatter" "T").graph.home? id =
      some ⟨other, ⟨"/", "b"⟩⟩ := by
    simp only [g, commands, id, other]
    decide +kernel
  obtain ⟨hplaces, -⟩ := home?_addEndpoint_iff_due .recycle .standard commands id "rt/chatter" "T"
    rfl haccepted
  exact ⟨haccepted, hhome, (hplaces _).mp hhome⟩

end Graph

end DiscoveryGraph
