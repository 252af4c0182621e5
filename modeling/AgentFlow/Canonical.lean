import AgentFlow.RoleSignals
import AgentFlow.Routing

/-!
# Canonical form

A graph is brought into canonical form by routing its edges and then inferring the roles of its
nodes.
-/

namespace AgentFlow

/-- The nodes and edges in canonical form; the edges named by `pinned` stay conditional. -/
def canonicalize (nodes : List Node) (edges : List Edge) (pinned : List String) :
    List Node × List Edge :=
  let routed := Routing.normalize nodes edges pinned
  (inferRoles nodes routed, routed)

/-- The graph in canonical form; the edges named by `pinned` stay conditional. -/
def Graph.canonical (g : Graph) (pinned : List String) : Graph :=
  let (nodes, edges) := canonicalize g.nodes g.edges pinned
  { g with nodes := nodes, edges := edges }

end AgentFlow
