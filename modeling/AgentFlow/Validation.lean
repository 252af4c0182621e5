import AgentFlow.Graph.Basic
import AgentFlow.Reachability
import AgentFlow.Routing

/-!
# Validation

What keeps a graph from being exported, found without changing the graph. The findings come in a
fixed order: an empty graph, repeated identifiers, edges that end nowhere, nodes that are no agents,
the entry, what cannot be reached from it, and the route keys.
-/

namespace AgentFlow

/-- A finding, with what it is about. -/
inductive Issue where
  | emptyGraph
  | duplicateNode (id : String) (count : Nat)
  | danglingSource (edge : Edge)
  | danglingTarget (edge : Edge)
  | missingAgentRole (node : Node)
  | unknownEntry (id : String)
  | noEntry
  | ambiguousEntry (candidates : List Node)
  | isolatedNode (node entry : Node)
  | unreachableNode (node entry : Node)
  | missingRouteKey (edge : Edge) (sourceName : String)
  | duplicateRouteKey (source sourceName key : String) (count : Nat)
  deriving DecidableEq

namespace Issue

def code : Issue → String
  | .emptyGraph => "empty_graph"
  | .duplicateNode .. => "duplicate_node"
  | .danglingSource _ => "dangling_source"
  | .danglingTarget _ => "dangling_target"
  | .missingAgentRole _ => "missing_agent_role"
  | .unknownEntry _ => "unknown_entry"
  | .noEntry => "no_entry"
  | .ambiguousEntry _ => "ambiguous_entry"
  | .isolatedNode .. => "isolated_node"
  | .unreachableNode .. => "unreachable_node"
  | .missingRouteKey .. => "missing_route_key"
  | .duplicateRouteKey .. => "duplicate_route_key"

/-- A name as findings show it. -/
def shown (name : String) : String := "'" ++ name ++ "'"

def message : Issue → String
  | .emptyGraph => "Graph has no nodes."
  | .duplicateNode id count =>
    "Node id " ++ shown id ++ " is used by " ++ count.repr ++ " nodes."
  | .danglingSource e => "Edge source " ++ shown e.source ++ " does not match any node."
  | .danglingTarget e => "Edge target " ++ shown e.target ++ " does not match any node."
  | .missingAgentRole n => "Node " ++ shown n.name ++ " is missing the agent role."
  | .unknownEntry id => "Entry node " ++ shown id ++ " does not exist."
  | .noEntry => "No entry node: every node has an incoming edge."
  | .ambiguousEntry candidates =>
    "Ambiguous entry: " ++ candidates.length.repr ++ " nodes have no incoming edges (" ++
      ", ".intercalate (candidates.map fun n => shown n.name) ++ ")."
  | .isolatedNode n entry =>
    "Node " ++ shown n.name ++ " is isolated and unreachable from entry " ++ shown entry.name ++ "."
  | .unreachableNode n entry =>
    "Node " ++ shown n.name ++ " is unreachable from entry " ++ shown entry.name ++ "."
  | .missingRouteKey _ sourceName =>
    "Conditional edge from " ++ shown sourceName ++ " has no route key."
  | .duplicateRouteKey _ sourceName key count =>
    "Route key " ++ shown key ++ " is used by " ++ count.repr ++ " edges from " ++
      shown sourceName ++ "."

def nodeId : Issue → Option String
  | .duplicateNode id _ | .unknownEntry id => some id
  | .missingAgentRole n | .isolatedNode n _ | .unreachableNode n _ => some n.id
  | .duplicateRouteKey source _ _ _ => some source
  | _ => none

def edgeId : Issue → Option String
  | .danglingSource e | .danglingTarget e | .missingRouteKey e _ => e.id
  | _ => none

end Issue

/-- A finding as it is written down. -/
structure IssueRecord where
  code : String
  message : String
  nodeId : Option String := none
  edgeId : Option String := none
  deriving DecidableEq, Repr

def Issue.record (issue : Issue) : IssueRecord :=
  ⟨issue.code, issue.message, issue.nodeId, issue.edgeId⟩

def IssueRecord.toJson (r : IssueRecord) : Json := .obj [
  ("code", .str r.code),
  ("message", .str r.message),
  ("node_id", .ofOption r.nodeId),
  ("edge_id", .ofOption r.edgeId)]

def Issue.toJson (issue : Issue) : Json := issue.record.toJson

namespace Validation

def checkEmpty (nodes : List Node) : List Issue := if nodes.isEmpty then [.emptyGraph] else []

def checkDuplicates (nodes : List Node) : List Issue :=
  (repeated (nodeIds nodes)).map fun (id, count) => .duplicateNode id count

def checkEnds (nodes : List Node) (e : Edge) : List Issue :=
  (if e.source ∈ nodeIds nodes then [] else [.danglingSource e]) ++
    (if e.target ∈ nodeIds nodes then [] else [.danglingTarget e])

def checkAgents (nodes : List Node) : List Issue :=
  (nodes.filter fun n => .agent ∉ n.roles).map .missingAgentRole

/-- The node at which the flow starts: the one that was asked for, or else the only one that no edge
leads into. -/
def entry (nodes : List Node) (edges : List Edge) : (entryId : Option String) → Except Issue Node
  | some id =>
    match lastNode? nodes id with
    | some n => .ok n
    | none => .error (.unknownEntry id)
  | none =>
    match entryCandidates nodes edges with
    | [] => .error .noEntry
    | [n] => .ok n
    | candidates => .error (.ambiguousEntry candidates)

/-- The edges as arrows between identifiers. -/
def arrows (edges : List Edge) : List (String × String) := edges.map fun e => (e.source, e.target)

/-- The identifier is an end of some edge. -/
def isTouched (edges : List Edge) (id : String) : Bool :=
  edges.any fun e => e.source = id || e.target = id

def checkReachable (nodes : List Node) (edges : List Edge) (entry : Node) : List Issue :=
  let reached := reachable (arrows edges) entry.id
  (nodes.filter fun n => n.id ∉ reached).map fun n =>
    -- no edge at all, or edges from elsewhere
    if isTouched edges n.id then .unreachableNode n entry else .isolatedNode n entry

/-- There is one entry, and every node can be reached from it. -/
def checkEntry (nodes : List Node) (edges : List Edge) (entryId : Option String) : List Issue :=
  -- an empty graph has its own finding
  if nodes.isEmpty then []
  else match entry nodes edges entryId with
    | .ok n => checkReachable nodes edges n
    | .error issue => [issue]

/-- The name of an edge's source: the node's, or the identifier if there is no node. -/
def sourceName (nodes : List Node) (id : String) : String :=
  match lastNode? nodes id with
  | some n => n.name
  | none => id

def checkKeysPresent (nodes : List Node) (edges : List Edge) : List Issue :=
  (edges.filter fun e => e.isConditional && Routing.explicitKey e = "").map fun e =>
    .missingRouteKey e (sourceName nodes e.source)

def keysFrom (edges : List Edge) (source : String) : List String :=
  (edges.filter fun e =>
    e.isConditional && e.source = source && Routing.explicitKey e ≠ "").map Routing.explicitKey

def checkKeysDistinct (nodes : List Node) (edges : List Edge) : List Issue :=
  let keyed := edges.filter fun e => e.isConditional && Routing.explicitKey e ≠ ""
  -- the sources come in the order of their first keyed edges
  (firstSeen (keyed.map (·.source))).flatMap fun source =>
    (repeated (keysFrom edges source)).map fun (key, count) =>
      .duplicateRouteKey source (sourceName nodes source) key count

end Validation

open Validation in
/-- All findings about a graph; there are none exactly if it can be exported. -/
def validate (nodes : List Node) (edges : List Edge) (entryId : Option String) : List Issue :=
  checkEmpty nodes ++ checkDuplicates nodes ++ edges.flatMap (checkEnds nodes) ++
    checkAgents nodes ++ checkEntry nodes edges entryId ++ checkKeysPresent nodes edges ++
    checkKeysDistinct nodes edges

/-- The findings as a report for people. -/
def reportIssues (issues : List Issue) : String :=
  if issues.isEmpty then "✓ Graph is ready for export"
  else "\n".intercalate ((issues.length.repr ++ " issue(s) found:") ::
    issues.map fun issue => "  [" ++ issue.code ++ "] " ++ issue.message)

end AgentFlow
