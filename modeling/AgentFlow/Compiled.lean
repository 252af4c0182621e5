import AgentFlow.Canonical
import AgentFlow.Schema.Graph

/-!
# Importing a running flow

A running flow has nodes under keys, with names and metadata, a start and an end that are nodes of
their own, and edges that are conditional or not and carry data. The import drops the start and the
end with every edge that touches them, reads label, description, tools and roles of a node from its
metadata, and takes the data of a conditional edge for its route key.
-/

namespace AgentFlow.Compiled

open Schema

structure RunningNode where
  key : String
  name : Json
  metadata : Json

structure RunningEdge where
  source : String
  target : String
  conditional : Bool
  data : Json

structure RunningFlow where
  name : Json
  nodes : List RunningNode
  edges : List RunningEdge

inductive ImportError where
  | faulty (faults : List Fault)
  | unlistable (kind : String)
  | noFields (kind : String)
  deriving DecidableEq

def startKey : String := "__start__"

def endKey : String := "__end__"

def isTerminal (key : String) : Bool := key = startKey || key = endKey

/-- The first value that is not nothing, or else the last one. -/
def firstOf : List Json → Json → Json
  | [], last => last
  | v :: rest, last => if v.isNothing then firstOf rest last else v

/-- The parts of a field; a field that holds nothing has none. -/
def fieldParts (fields : List (String × Json)) (name : String) : Except ImportError (List Json) :=
  let v := (Json.field? fields name).getD .null
  if v.isNothing then .ok []
  else match parts v with
    | .ok items => .ok items
    | .error kind => .error (.unlistable kind)

/-- The metadata of a node, by its fields; metadata that is nothing has no fields. -/
def metadataFields (v : Json) : Except ImportError (List (String × Json)) :=
  if v.isNothing then .ok []
  else match v with
    | .obj fields => .ok fields
    | _ => .error (.noFields v.kindName)

/-- Reading that stops at any fault. -/
def orError {α : Type} : Outcome α → Except ImportError α
  | .ok a => .ok a
  | .faults first more => .error (.faulty (first :: more))
  | .unlistable kind => .error (.unlistable kind)

/-- The node that a node of a running flow stands for. Roles that are none are skipped. -/
def importNode (n : RunningNode) : Except ImportError Node := do
  let fields ← metadataFields n.metadata
  let label := firstOf [(Json.field? fields "label").getD .null, n.name] (.str n.key)
  let description := (Json.field? fields "description").getD (.str "")
  let tools ← fieldParts fields "tools"
  let roles ← fieldParts fields "roles"
  orError (Schema.node .program (.obj [
    ("id", .str n.key),
    ("label", label),
    ("description", description),
    ("tools", .arr tools),
    ("roles", .texts ((roles.filterMap role?).map Role.text))]))

/-- The edge that the edge with number `i` of a running flow stands for. -/
def importEdge (i : Nat) (e : RunningEdge) : Edge where
  id := some (e.source ++ "->" ++ e.target ++ "#" ++ i.repr)
  source := e.source
  target := e.target
  -- only null counts as no data here
  routeKey := if e.conditional && e.data != .null then some e.data.plain else none

/-- The edges between nodes that are neither start nor end. -/
def importEdges (edges : List RunningEdge) : List Edge :=
  let numbered := edges.mapIdx fun i e => (e, importEdge i e)
  (numbered.filter fun (e, _) => !isTerminal e.source && !isTerminal e.target).map (·.2)

/-- The graph of a running flow, named `name` unless that is nothing. -/
def importFlow (flow : RunningFlow) (name : Json) : Except ImportError Graph := do
  let nodes ← (flow.nodes.filter fun n => !isTerminal n.key).mapM importNode
  let (nodes, edges) := canonicalize nodes (importEdges flow.edges) []
  -- the name is checked last
  let name ← orError ((text (firstOf [name, flow.name] (.str defaultFlowName))).under
    (.field "name"))
  return { name := name, nodes := nodes, edges := edges }

end AgentFlow.Compiled
