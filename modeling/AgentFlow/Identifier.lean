/-!
# Identifiers

New nodes and edges get identifiers in sequence, nodes and edges each from their own sequence.
-/

namespace AgentFlow

/-- The identifier of the node that is made after `n` others. -/
def newNodeId (n : Nat) : String := "node-" ++ (n + 1).repr

def newEdgeId (n : Nat) : String := "edge-" ++ (n + 1).repr

/-- How many identifiers have been given out. -/
structure Supply where
  nodes : Nat := 0
  edges : Nat := 0
  deriving DecidableEq, Repr

namespace Supply

/-- The identifier for a node, a new one unless one is given, and the supply after it. -/
def nodeId (supply : Supply) (given : Option String) : String × Supply :=
  let id := given.getD ""
  if id = "" then (newNodeId supply.nodes, { supply with nodes := supply.nodes + 1 })
  else (id, supply)

def edgeId (supply : Supply) (given : Option String) : String × Supply :=
  let id := given.getD ""
  if id = "" then (newEdgeId supply.edges, { supply with edges := supply.edges + 1 })
  else (id, supply)

end Supply

end AgentFlow
