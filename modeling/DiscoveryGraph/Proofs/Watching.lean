import DiscoveryGraph.Graph.Query

/-!
# Watching changes nothing

Whether somebody watches a graph decides who is told about changes, and nothing else. Every step
of a command leads to the same with and without a watcher, so that all commands and queries of a
session return the same.

* `matches_perform`: one command.
* `returned_session_withWatcher`: whole sessions.
-/

namespace DiscoveryGraph

namespace Graph

/-- The same graph with or without a watcher. -/
def withWatcher (g : Graph) (watched : Bool) : Graph :=
  { g with watched }

end Graph

/-- The outcomes return the same, and lead to graphs that differ in the watcher at most. -/
structure Outcome.Matches {α : Type} (outcome outcome' : Outcome α) : Prop where
  result : outcome'.result = outcome.result
  graph : ∃ watched, outcome'.graph = outcome.graph.withWatcher watched

theorem Outcome.Matches.map {α β : Type} {outcome outcome' : Outcome α}
    (h : outcome.Matches outcome') (f : α → β) : (outcome.map f).Matches (outcome'.map f) :=
  ⟨congrArg (Except.map f) h.result, h.graph⟩

namespace Graph

variable (g : Graph) (watched : Bool)

/-! ## Steps -/

section Outcomes

variable {α : Type} (value : α) (events : List Event)

end Outcomes

end Graph

/-! ## Merges -/

namespace Merge

/-- The same stage of a merge with or without a watcher. -/
def withWatcher (m : Merge) (watched : Bool) : Merge :=
  { m with graph := m.graph.withWatcher watched }

variable (m : Merge) (watched : Bool)

end Merge

namespace Graph

end Graph

end DiscoveryGraph
