import AgentFlow.Graph.Basic
import AgentFlow.Text.WholeWord

/-!
# Role signals

A node has the roles that it declares and those that the graph shows: every node is an agent, tools
make it a tool, several outgoing edges a router, and the vocabulary of memory in its texts, or a
tool that stores things, a memory. Inference only ever adds roles.
-/

namespace AgentFlow

open Text

def memoryWords : List String :=
  ["memory", "context", "history", "store", "persist", "recall", "retrieve", "knowledge", "cache"]

/-- The tools that store things. -/
def memoryTools : List String := ["db-query", "notion"]

/-- The text that is searched for the vocabulary of memory. -/
def Node.prose (n : Node) : String := n.label ++ " " ++ n.description

def Node.tellsOfMemory (n : Node) : Bool :=
  mentionsAny (memoryWords.map String.toList) false n.prose.toList ||
    n.tools.any (· ∈ memoryTools)

/-- The graph shows that the node has a role; `fanOut` is the number of its outgoing edges. -/
def Node.signals (n : Node) (fanOut : Nat) : Role → Bool
  | .agent => true
  | .tool => !n.tools.isEmpty
  | .router => 1 < fanOut
  | .memory => n.tellsOfMemory

def Node.signalledRoles (n : Node) (fanOut : Nat) : List Role :=
  Role.order.filter (n.signals fanOut)

def Node.inferRoles (n : Node) (fanOut : Nat) : Node :=
  { n with roles := Role.canonical (n.roles ++ n.signalledRoles fanOut) }

/-- The nodes with the roles that the edges show added to their own. -/
def inferRoles (nodes : List Node) (edges : List Edge) : List Node :=
  nodes.map fun n => n.inferRoles (outDegree edges n.id)

end AgentFlow
