import DiscoveryGraph.Graph.Edit
import DiscoveryGraph.Graph.Reconcile

/-!
# Commands and runs

Everything that may change a graph, as one type of command, and the graphs that sequences of
commands lead to.
-/

namespace DiscoveryGraph

/-- What can be asked of a graph. -/
inductive Command where
  | addEndpoint (id : EndpointId) (topic type : String)
  | removeEndpoint (id : EndpointId)
  | addParticipant (gid : Gid) (enclave : String)
  | removeParticipant (gid : Gid)
  | addNode (participant : Gid) (node : NodeName)
  | removeNode (participant : Gid) (node : NodeName)
  | associate (id : EndpointId) (participant : Gid) (node : NodeName)
  | dissociate (id : EndpointId) (participant : Gid) (node : NodeName)
  | reconcile (snapshot : Snapshot)
  | watch
  | unwatch
deriving DecidableEq

/-- What a command answers when it is not refused. -/
inductive Answer where
  | done
  | snapshot (snapshot : Snapshot)
  | summary (summary : Summary)
deriving DecidableEq

/-- The same outcome with another answer. -/
def Outcome.map {α β : Type} (f : α → β) (outcome : Outcome α) : Outcome β :=
  { outcome with result := outcome.result.map f }

namespace Graph

/-- A command is carried out, or refused. -/
def perform (g : Graph) : Command → Outcome Answer
  | .addEndpoint id topic type => (g.addEndpoint id topic type).map fun _ => .done
  | .removeEndpoint id => (g.removeEndpoint id).map fun _ => .done
  | .addParticipant gid enclave => (g.addParticipant gid enclave).map fun _ => .done
  | .removeParticipant gid => (g.removeParticipant gid).map fun _ => .done
  | .addNode participant node => (g.addNode participant node).map .snapshot
  | .removeNode participant node => (g.removeNode participant node).map .snapshot
  | .associate id participant node => (g.associate id participant node).map fun _ => .done
  | .dissociate id participant node => (g.dissociate id participant node).map fun _ => .done
  | .reconcile snapshot => (g.reconcile snapshot).map .summary
  | .watch => g.watch.keep .done
  | .unwatch => g.unwatch.keep .done

/-- The graph after a sequence of commands, each of them carried out or refused. -/
def run (g : Graph) (commands : List Command) : Graph :=
  commands.foldl (fun g command => (g.perform command).graph) g

/-- A graph that commands lead to from one without content. -/
def Reachable (g : Graph) : Prop :=
  ∃ policy prefs commands, (emptyWith policy prefs).run commands = g

end Graph

end DiscoveryGraph
